/-!
# Maps

Go maps that are read and written by key and never iterated: a map is what it
holds under each key.
-/

namespace GoSem

@[ext] structure Map (K V : Type) where
  get : K → Option V

namespace Map
variable {K V : Type}

def empty : Map K V := ⟨fun _ => none⟩

@[simp] theorem get_empty (k : K) : (empty : Map K V).get k = none := rfl

variable [DecidableEq K] (m : Map K V)

/-- `m[k] = v`. -/
def set (k : K) (v : V) : Map K V := ⟨fun x => if x = k then some v else m.get x⟩

/-- `delete(m, k)`. -/
def delete (k : K) : Map K V := ⟨fun x => if x = k then none else m.get x⟩

@[simp] theorem get_set (k x : K) (v : V) :
    (m.set k v).get x = if x = k then some v else m.get x := rfl

@[simp] theorem get_delete (k x : K) :
    (m.delete k).get x = if x = k then none else m.get x := rfl

end Map

end GoSem
