import PlainStory.Library.FileTree
import PlainStory.Options
import PlainStory.Report.Reporter
import PlainStory.Run.Runner
import PlainStory.Proofs.Pattern.Cut
import PlainStory.Proofs.Run.Outcomes
import PlainStory.Proofs.Run.Confinement
import PlainStory.Proofs.Run.DryRun
import PlainStory.Proofs.Run.Session
import PlainStory.Proofs.Run.StoryHooks
import PlainStory.Proofs.Step.Building
import PlainStory.Proofs.Story.RoundTrip
import PlainStory.Proofs.Step.Choice
import PlainStory.Proofs.Pattern.Literal
import PlainStory.Proofs.Pattern.Source
import PlainStory.Proofs.Pattern.Filling
import PlainStory.Proofs.Text.Lines
import PlainStory.Proofs.Story.Seam
import PlainStory.Proofs.Story.Steps
import PlainStory.Proofs.Report.Quiet
import PlainStory.Proofs.Report.Summary
import PlainStory.Proofs.Report.Endings
import PlainStory.Proofs.Examples.Rendering
import PlainStory.Proofs.Story.Layout
import PlainStory.Proofs.Story.Clauses
import PlainStory.Proofs.Story.Preface
import PlainStory.Proofs.Story.Quoting
import PlainStory.Proofs.Examples.Tokens
import PlainStory.Proofs.Examples.Reading
import PlainStory.Proofs.Pattern.Alternatives
import PlainStory.Proofs.Step.Spacing
import PlainStory.Proofs.Argument.Precedence
import PlainStory.Proofs.Argument.Lists
import PlainStory.Proofs.Step.Invocation
import PlainStory.Proofs.Report.Indentation
import PlainStory.Proofs.Step.StartingWords
import PlainStory.Proofs.Story.Places
import PlainStory.Proofs.Report.Coloring
