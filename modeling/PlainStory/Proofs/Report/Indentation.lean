import Mathlib.Data.List.Induction
import PlainStory.Report.Console

/-!
# The indentation of a console report

A console report knows how far it is indented and nothing of the stories and scenarios that it indents
for. `Signal.enclosures` reads a stream with a stack of those that are open. The main statement is that
in a stream that closes what it opens the indentation is two for each of them at every moment, so that
each signal is written by itself, behind the spaces for what is open around it.
-/

namespace PlainStory

/-! ### Open stories and scenarios -/

/-- What a report indents. -/
inductive Enclosure where
  | story
  | scenario
deriving DecidableEq

namespace Event

/-- The stories and scenarios that are open after an event, the innermost first, if the event can stand
there. -/
def enclose : List Enclosure → Event → Option (List Enclosure)
  | ns, beforeStory _ _ => some (.story :: ns)
  | ns, beforeScenario _ => some (.scenario :: ns)
  | .story :: ns, afterStory _ => some ns
  | .scenario :: ns, afterScenario => some ns
  | _, afterStory _ | _, afterScenario => none
  | ns, _ => some ns

theorem isClosing_eq_false {e : Event} (h : e.isOpening = true) : e.isClosing = false := by
  cases e <;> first | rfl | cases h

/-- What is open grows by what an event opens and shrinks by what it closes. -/
theorem length_of_enclose {ns ms : List Enclosure} {e : Event} (h : enclose ns e = some ms) :
    ms.length + e.isClosing.toNat = ns.length + e.isOpening.toNat := by
  cases e with
  | afterStory embedded => rcases ns with _ | ⟨_ | _, ns⟩ <;> cases h; rfl
  | afterScenario => rcases ns with _ | ⟨_ | _, ns⟩ <;> cases h; rfl
  | _ => cases ns <;> cases h <;> rfl

end Event

namespace Signal

def eventsOf (signals : List Signal) : List Event := signals.filterMap event?

@[simp] theorem eventsOf_concat_event (past : List Signal) (e : Event) :
    eventsOf (past ++ [.event e]) = eventsOf past ++ [e] := List.filterMap_append

@[simp] theorem eventsOf_concat_text (past : List Signal) (s : Text) :
    eventsOf (past ++ [.text s]) = eventsOf past :=
  List.filterMap_append.trans (List.append_nil _)

/-- The stories and scenarios that are open after a stream, unless it closes something that is not the
innermost of them. Texts open and close nothing. -/
def enclosures (past : List Signal) : Option (List Enclosure) :=
  (eventsOf past).foldlM Event.enclose []

variable {past : List Signal}

theorem enclosures_concat_event (past : List Signal) (e : Event) :
    enclosures (past ++ [.event e]) = (enclosures past).bind fun ns => e.enclose ns := by
  simp [enclosures]

theorem enclosures_concat_text (past : List Signal) (s : Text) :
    enclosures (past ++ [.text s]) = enclosures past := by
  rw [enclosures, eventsOf_concat_text, enclosures]

theorem exists_enclosures_of_isPrefix {signals : List Signal} (hpast : past <+: signals)
    {ns : List Enclosure} (h : enclosures signals = some ns) : ∃ ms, enclosures past = some ms := by
  obtain ⟨future, rfl⟩ := hpast
  rw [enclosures, eventsOf, List.filterMap_append, List.foldlM_append] at h
  obtain ⟨ms, hms, -⟩ := Option.bind_eq_some_iff.1 h
  exact ⟨ms, hms⟩

/-- How many more stories and scenarios a stream opens than it closes. -/
def balance (past : List Signal) : Int :=
  (eventsOf past).countP Event.isOpening - (eventsOf past).countP Event.isClosing

theorem length_of_enclosures {ns : List Enclosure} (h : enclosures past = some ns) :
    (ns.length : Int) = balance past := by
  induction past using List.reverseRecOn generalizing ns with
  | nil =>
    obtain rfl : [] = ns := Option.some.inj h
    rfl
  | append_singleton past s ih =>
    cases s with
    | text s =>
      rw [enclosures_concat_text] at h
      rw [ih h, balance, balance, eventsOf_concat_text]
    | event e =>
      rw [enclosures_concat_event] at h
      obtain ⟨ms, hms, he⟩ := Option.bind_eq_some_iff.1 h
      have hlength := Event.length_of_enclose he
      have hpast := ih hms
      simp only [balance, eventsOf_concat_event, List.countP_append, List.countP_singleton] at hpast ⊢
      cases ho : e.isOpening <;> cases hc : e.isClosing <;> simp [ho, hc] at hlength ⊢ <;> omega

/-! ### What is written -/

/-- The number of stories and scenarios that are open after a stream. -/
def depth (past : List Signal) : Nat := ((enclosures past).getD []).length

theorem depth_eq {ns : List Enclosure} (h : enclosures past = some ns) : depth past = ns.length := by
  rw [depth, h, Option.getD_some]

/-- The number of stories and scenarios around an event: those that are open both before and after
it. -/
def depthAround (past : List Signal) (e : Event) : Nat := min (depth past) (depth (past ++ [.event e]))

/-- What is written of a signal after others: the lines of an event are indented, those of a text are
not. -/
def written (k : Keywords) (past : List Signal) : Signal → Text
  | .event e =>
    (e.lines k false).flatMap fun l => List.replicate (2 * depthAround past e) ' ' ++ l ++ ['\n']
  | .text s => (Text.lines s).flatMap fun l => l ++ ['\n']

/-- What is written of signals one after another. -/
def writtenAfter (k : Keywords) : List Signal → List Signal → Text
  | _, [] => []
  | past, s :: future => written k past s ++ writtenAfter k (past ++ [s]) future

theorem writtenAfter_concat (k : Keywords) (past signals : List Signal) (s : Signal) :
    writtenAfter k past (signals ++ [s]) =
      writtenAfter k past signals ++ written k (past ++ signals) s := by
  induction signals generalizing past with
  | nil => simp [writtenAfter]
  | cons first signals ih => simp [writtenAfter, ih]

end Signal

/-! ### Lines of output -/

namespace Output

variable {o : Output}

theorem write_of_not_failing (h : o.failing = []) (s : Text) :
    (o.write s).2 = true ∧ (o.write s).1.failing = [] ∧ (o.write s).1.text = o.text ++ s := by
  rw [write]
  by_cases hs : s = []
  · rw [if_pos hs, hs, List.append_nil]
    exact ⟨rfl, h, rfl⟩
  · have hwrites : o.writes ∉ o.failing := h ▸ List.not_mem_nil
    rw [if_neg hs, if_neg hwrites]
    exact ⟨rfl, h, o.text_push s⟩

theorem writeLine_of_not_failing (h : o.failing = []) (s : Text) :
    (o.writeLine s).2 = true ∧ (o.writeLine s).1.failing = [] ∧
      (o.writeLine s).1.text = o.text ++ (s ++ ['\n']) := by
  obtain ⟨hdone, hfailing, htext⟩ := write_of_not_failing h s
  rw [writeLine]
  simp only [hdone, if_true]
  obtain ⟨hdone', hfailing', htext'⟩ := write_of_not_failing hfailing ['\n']
  exact ⟨hdone', hfailing', by rw [htext', htext, List.append_assoc]⟩

theorem writeLines_of_not_failing (h : o.failing = []) (ls : List Text) :
    (o.writeLines ls).failing = [] ∧
      (o.writeLines ls).text = o.text ++ ls.flatMap fun l => l ++ ['\n'] := by
  induction ls generalizing o with
  | nil => exact ⟨h, by simp [writeLines]⟩
  | cons l ls ih =>
    obtain ⟨hdone, hfailing, htext⟩ := writeLine_of_not_failing h l
    obtain ⟨hfailing', htext'⟩ := ih hfailing
    rw [writeLines]
    simp only [hdone, if_true]
    exact ⟨hfailing', by rw [htext', htext, List.append_assoc, List.flatMap_cons]⟩

end Output

/-! ### The report -/

namespace Console

/-- A plain report that is indented for so many stories and scenarios and has written a text. -/
structure IsAt (k : Keywords) (depth : Nat) (written : Text) (c : Console) : Prop where
  painted : c.painted = false
  keywords : c.keywords = k
  failing : c.output.failing = []
  indent : c.indent = 2 * depth
  text : c.output.text = written

variable {k : Keywords} {c : Console} {written : Text}

theorem IsAt.receive_text {depth : Nat} (h : c.IsAt k depth written) (s : Text) :
    (c.receive (.text s)).IsAt k depth
      (written ++ (Text.lines s).flatMap fun l => l ++ ['\n']) := by
  obtain ⟨hfailing, htext⟩ := Output.writeLines_of_not_failing h.failing (Text.lines s)
  exact ⟨h.painted, h.keywords, hfailing, h.indent, by rw [← h.text]; exact htext⟩

theorem IsAt.writeIndented {depth : Nat} (h : c.IsAt k depth written) (ls : List Text) :
    (c.writeIndented ls).IsAt k depth
      (written ++ ls.flatMap fun l => List.replicate (2 * depth) ' ' ++ l ++ ['\n']) := by
  obtain ⟨hfailing, htext⟩ := Output.writeLines_of_not_failing h.failing
    (ls.map (List.replicate c.indent ' ' ++ ·))
  refine ⟨h.painted, h.keywords, hfailing, h.indent, ?_⟩
  rw [← h.text, ← h.indent]
  simpa [Console.writeIndented, List.flatMap_map] using htext

theorem IsAt.indentedBy {depth : Nat} (h : c.IsAt k depth written) {depth' indent : Nat}
    (hindent : indent = 2 * depth') : ({ c with indent := indent } : Console).IsAt k depth' written :=
  ⟨h.painted, h.keywords, h.failing, hindent, h.text⟩

theorem receive_opening {e : Event} (ho : e.isOpening = true) (c : Console) :
    c.receive (.event e) =
      { c.writeIndented (e.lines c.keywords c.painted) with indent := c.indent + 2 } := by
  simp only [receive, ho, Event.isClosing_eq_false ho, if_true, Bool.false_eq_true, if_false]
  rfl

theorem receive_not_opening {e : Event} (ho : e.isOpening = false) (c : Console) :
    c.receive (.event e) =
      ({ c with indent := if e.isClosing then c.indent - 2 else c.indent } : Console).writeIndented
        (e.lines c.keywords c.painted) := by
  cases hc : e.isClosing <;> simp only [receive, ho, hc, if_true, Bool.false_eq_true, if_false]

/-- An event is written at the depth that is around it, and moves the indentation along. -/
theorem IsAt.receive_event {ns ms : List Enclosure} (h : c.IsAt k ns.length written) {e : Event}
    (he : e.enclose ns = some ms) :
    (c.receive (.event e)).IsAt k ms.length (written ++ (e.lines k false).flatMap fun l =>
      List.replicate (2 * min ns.length ms.length) ' ' ++ l ++ ['\n']) := by
  have hlength := Event.length_of_enclose he
  have hindent := h.indent
  have hlines : e.lines c.keywords c.painted = e.lines k false := by rw [h.keywords, h.painted]
  cases ho : e.isOpening with
  | true =>
    simp only [ho, Event.isClosing_eq_false ho, Bool.toNat_true, Bool.toNat_false] at hlength
    rw [receive_opening ho, hlines, Nat.min_eq_left (by omega)]
    exact (h.writeIndented (e.lines k false)).indentedBy (by omega)
  | false =>
    have hms : (if e.isClosing then c.indent - 2 else c.indent) = 2 * ms.length := by
      cases hc : e.isClosing <;> simp [ho, hc] at hlength ⊢ <;> omega
    have hmin : ms.length ≤ ns.length := by
      rw [ho, Bool.toNat_false] at hlength
      omega
    rw [receive_not_opening ho, hlines, Nat.min_eq_right hmin]
    exact (h.indentedBy hms).writeIndented (e.lines k false)

/-- A report that is fresh before a stream is where the stream leaves it. -/
theorem isAt_receiveAll {past : List Signal} {ns : List Enclosure}
    (h : Signal.enclosures past = some ns) :
    (({ keywords := k } : Console).receiveAll past).IsAt k ns.length
      (Signal.writtenAfter k [] past) := by
  induction past using List.reverseRecOn generalizing ns with
  | nil =>
    obtain rfl : [] = ns := Option.some.inj h
    exact ⟨rfl, rfl, rfl, rfl, rfl⟩
  | append_singleton past s ih =>
    rw [receiveAll, List.foldl_append, List.foldl_cons, List.foldl_nil, Signal.writtenAfter_concat, List.nil_append]
    cases s with
    | text s =>
      rw [Signal.enclosures_concat_text] at h
      exact (ih h).receive_text s
    | event e =>
      have hall := h
      rw [Signal.enclosures_concat_event] at h
      obtain ⟨ms, hms, he⟩ := Option.bind_eq_some_iff.1 h
      rw [Signal.written, Signal.depthAround, Signal.depth_eq hms, Signal.depth_eq hall]
      exact (ih hms).receive_event he

/-- In a stream that closes all stories and scenarios that it opens, the inner ones first, each event
is written behind two spaces for each of them that is open around it, and each text as it is. At every
moment the indentation is two for each that is open, which is by how many more were opened than
closed, so it is never held at zero by force; at the end it is zero. -/
theorem text_receiveAll_nested (k : Keywords) {signals : List Signal}
    (h : Signal.enclosures signals = some []) :
    let fresh : Console := { painted := false, keywords := k, indent := 0, output := {} }
    (fresh.receiveAll signals).output.text = Signal.writtenAfter k [] signals ∧
      (fresh.receiveAll signals).indent = 0 ∧
      ∀ past, past <+: signals → ∃ ns, Signal.enclosures past = some ns ∧
        (fresh.receiveAll past).indent = 2 * ns.length ∧
        ((fresh.receiveAll past).indent : Int) = 2 * Signal.balance past := by
  intro fresh
  have hall := isAt_receiveAll (k := k) h
  refine ⟨hall.text, hall.indent, fun past hpast => ?_⟩
  obtain ⟨ns, hns⟩ := Signal.exists_enclosures_of_isPrefix hpast h
  have hindent := (isAt_receiveAll (k := k) hns).indent
  refine ⟨ns, hns, hindent, ?_⟩
  rw [hindent, ← Signal.length_of_enclosures hns]
  push_cast
  rfl

/-- A given story within a scenario, with a text of two lines in between. -/
def nestedSignals : List Signal :=
  [.event (.beforeStory { path? := some "top", description := " about \n\n accounts" } false),
    .event (.beforeScenario "outer"), .event (.givenStories ["one", "two"]),
    .event (.beforeStory { path? := some "one" } true), .event (.beforeScenario "inner"),
    .text "[Note]\r\n  as it is", .event (.outcome (.pending "Given x\n and more")),
    .event .afterScenario, .event (.afterStory true), .event (.outcome (.notPerformed "Then y")),
    .event .afterScenario, .event (.afterStory false)]

theorem text_receiveAll_nested_of_given_story :
    Signal.enclosures nestedSignals = some [] ∧
      (({} : Console).receiveAll nestedSignals).output.text =
        ("Story: top\n  about\n  accounts\n" ++ "  Scenario: outer\n    GivenStories: one, two\n" ++
          "    Given story: one\n      Scenario: inner\n" ++ "[Note]\n  as it is\n" ++
          "        ?  Given x\n and more (PENDING)\n" ++ "    -  Then y (NOT PERFORMED)\n" : Text) := by
  have hnested : Signal.enclosures nestedSignals = some [] := by decide
  refine ⟨hnested, (text_receiveAll_nested .english hnested).1.trans ?_⟩
  decide +kernel

end Console

end PlainStory
