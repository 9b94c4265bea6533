/-!
# Keyed lists

A `Keyed` list is a map that remembers the order in which its keys were first put: putting a key
again keeps its place and replaces its value.  The maps whose order can be seen in a result, such
as the members of a JSON object, are keyed lists.
-/

namespace DiagramScene

/-- Keys with their values, in order. -/
abbrev Keyed (β : Type) := List (String × β)

namespace Keyed

variable {β : Type}

/-- The value of a key. -/
def get? (m : Keyed β) (key : String) : Option β :=
  m.lookup key

/-- The key has a value. -/
def contains (m : Keyed β) (key : String) : Bool :=
  m.any (·.1 == key)

/-- The keys in order. -/
def keys (m : Keyed β) : List String :=
  m.map (·.1)

/-- The map with a value for a key, in the key's place or at the end. -/
def put (m : Keyed β) (key : String) (value : β) : Keyed β :=
  match m with
  | [] => [(key, value)]
  | e :: rest => if e.1 = key then (key, value) :: rest else e :: put rest key value

/-- The map with all entries of another put into it, one after the other. -/
def putAll (m others : Keyed β) : Keyed β :=
  others.foldl (fun acc e => put acc e.1 e.2) m

/-- The map with the entries of another whose keys it lacks. -/
def putNew (m others : Keyed β) : Keyed β :=
  others.foldl (fun acc e => if contains acc e.1 then acc else put acc e.1 e.2) m

/-- The map of a list of entries, of which the last one for a key counts. -/
def ofList (entries : List (String × β)) : Keyed β :=
  putAll [] entries

/-- The map without a key. -/
def erase (m : Keyed β) (key : String) : Keyed β :=
  m.filter (·.1 != key)

theorem put_nil (key : String) (value : β) : put [] key value = [(key, value)] := rfl

theorem putAll_nil (m : Keyed β) : putAll m [] = m := rfl

theorem putAll_append (m a b : Keyed β) : putAll m (a ++ b) = putAll (putAll m a) b := by
  simp [putAll]

theorem get?_put_self (m : Keyed β) (key : String) (value : β) :
    get? (put m key value) key = some value := by
  induction m with
  | nil => simp [put, get?]
  | cons e rest ih =>
    obtain ⟨k, v⟩ := e
    unfold put
    split
    · simp [get?]
    · rename_i h
      have hne : (key == k) = false := by simpa using fun eq => h eq.symm
      simpa [get?, List.lookup_cons, hne] using ih

end Keyed

end DiagramScene
