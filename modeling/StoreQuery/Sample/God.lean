import StoreQuery.Entity

/-! # A record of an application

An application keeps its own types and says how they become records and how records become them.
Here it keeps gods, with a name and an age.
-/

namespace StoreQuery.Sample

structure God where
  name : String
  age : Int64
  deriving DecidableEq, Repr

namespace God

def field (e : Entity) (name : String) : Except QueryError Value :=
  match e.get? name with
  | some v => .ok v
  | none => .error (.meaning (.unfitRecord ("missing `" ++ name ++ "`")))

def wanted {α : Type} (name kind : String) : Option α → Except QueryError α
  | some a => .ok a
  | none => .error (.meaning (.unfitRecord ("`" ++ name ++ "` is not " ++ kind)))

/-- The god that a record describes. Fields that a god does not have are not looked at. -/
def ofEntity (e : Entity) : Except QueryError God := do
  let name ← field e "name"
  let name ← wanted "name" "text" name.text?
  let age ← field e "age"
  let age ← wanted "age" "an integer" age.int?
  return ⟨name, age⟩

def toEntity (g : God) : Entity :=
  (Entity.ofName "God" |>.insert "name" (.text g.name)).insert "age" (.int g.age)

end God

end StoreQuery.Sample
