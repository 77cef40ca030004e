import CodeSearch.Json.Access
/-!
# Values that are unfit for their use

A setting may be given a value that is of no use where it is needed. That is no fault as long as nothing
needs it. So a record of settings is read with a stand-in for each such value, and the names of the settings
are noted with the faults that their use will be.
-/

namespace CodeSearch

/-- Settings that were given unfit values, with the faults that their use is. -/
abbrev Unfit := List (String × Fault)

namespace Unfit

/-- Settings of some names can be used. -/
def check (unfit : Unfit) (names : List String) : Except Fault Unit :=
  names.forM fun name => (unfit.lookup name).elim (.ok ()) .error

/-- What a setting holds, if those of some names can be used. -/
def use {α : Type} (unfit : Unfit) (names : List String) (value : α) : Except Fault α :=
  (unfit.check names).map fun _ => value

end Unfit

/-- Reading that notes what is unfit. -/
abbrev Lenient := StateM Unfit

namespace Lenient

/-- What a record gives for a setting; where that is unfit, a stand-in. -/
def setting {α : Type} (record : Json.Fields) (name : String) (usual : α)
    (read : Json → Except Fault α) : Lenient α :=
  match record.given name usual read with
  | .ok value => pure value
  | .error fault => do
    modify (· ++ [(name, fault)])
    return usual

/-- The settings that were read, with those that are unfit. -/
def run {α β : Type} (work : Lenient α) (build : α → Unfit → β) : β :=
  let (value, unfit) := StateT.run work []
  build value unfit

end Lenient

end CodeSearch
