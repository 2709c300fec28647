import Chronicle.Text.Quoted

/-!
# Sessions

The options that a session on a store is opened with.
-/

namespace Chronicle

/-- How a session uses its store. A read-only session rejects every write, one that prefers
secondaries may be served by stale replicas where there are any, and the label tells the log
events of one session from those of another. -/
structure SessionOptions where
  readOnly : Bool := false
  secondaryPreferred : Bool := false
  label : Option String := none
deriving DecidableEq, Inhabited

namespace SessionOptions

/-- The options of a session that only reads. -/
def reading : SessionOptions := { readOnly := true }

/-- The label that log events carry. -/
def logLabel (options : SessionOptions) : String := options.label.getD "default"

/-- The options as a store shows them. -/
def text (options : SessionOptions) : String :=
  let label := match options.label with
    | none => "None"
    | some label => "Some(" ++ Quoted.quote label ++ ")"
  "SessionOptions \x7b read_only: " ++ cond options.readOnly "true" "false" ++
    ", secondary_preferred: " ++ cond options.secondaryPreferred "true" "false" ++
    ", label: " ++ label ++ " \x7d"

end SessionOptions

end Chronicle
