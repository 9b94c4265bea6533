/-!
# Diagnostics

What a drawing leaves out is reported.  A `Diagnostic` says what was left out and why; none of
them is fatal, and they are shown in the order in which they came up.
-/

namespace DiagramScene

/-- Something that a drawing leaves out. -/
inductive Diagnostic where
  | unsupportedType (id kind : String)
  | tooFewPoints (kind id : String)
  | unsupportedArrowhead (head id : String)
  | imageWithoutFile (id : String)
  | missingFile (id fileId : String)
  | unsupportedBackground (color : String)
  /-- A message of another program. -/
  | note (message : String)
  deriving BEq, DecidableEq, Repr

/-- The wording of a diagnostic. -/
def Diagnostic.message : Diagnostic → String
  | unsupportedType id kind => s!"skipped element `{id}` of unsupported type `{kind}`"
  | tooFewPoints kind id => s!"skipped {kind} `{id}` with fewer than two points"
  | unsupportedArrowhead head id => s!"skipped unsupported arrowhead `{head}` on `{id}`"
  | imageWithoutFile id => s!"skipped image `{id}` without a fileId"
  | missingFile id fileId => s!"skipped image `{id}`: file `{fileId}` is missing or has no data URL"
  | unsupportedBackground color =>
    s!"unsupported background color `{color}`, rendering transparent"
  | note message => message

/-- Diagnostics in the order in which they came up. -/
abbrev Diagnostics := List Diagnostic

namespace Diagnostics

/-- The messages, in order. -/
def messages (ds : Diagnostics) : List String := ds.map (·.message)

/-- All messages on one line. -/
def summary (ds : Diagnostics) : String := " | ".intercalate (messages ds)

end Diagnostics

end DiagramScene
