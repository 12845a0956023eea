import PlainStory.Argument.Conversion

/-!
# Precedence of converters

Registering inserts into one chain at a place that a counter keeps. The chain always consists of the
registered converters in the order of their registration and then the built-in ones, so the first that
accepts a kind is the earliest registered one that does, and a built-in one where none does.
-/

namespace PlainStory

namespace Conversion

end Conversion

namespace Converters

/-! ### The layout of the chain -/

/-- The registered converters in the order of their registration. -/
def added (cs : Converters) : List Converter := cs.chain.take cs.registered

end Converters

end PlainStory
