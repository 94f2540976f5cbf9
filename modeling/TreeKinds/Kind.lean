/-! Kinds of tree nodes. A registry lists the kinds of a language in the order in which they are
declared. -/
namespace TreeKinds

structure Kind where
  name : String
  friendlyName : String
  line : Nat
  deriving DecidableEq, Repr

abbrev Registry := List Kind

/-- ASCII letters and the underscore. -/
def isNameStart (c : Char) : Bool := c.isAlpha || c == '_'

def isNameRest (c : Char) : Bool := c.isAlphanum || c == '_'

def isName : List Char → Bool
  | [] => false
  | c :: s => isNameStart c && s.all isNameRest

namespace Registry

def named? (kinds : Registry) (name : String) : Option Kind := kinds.find? (·.name == name)

theorem named?_eq_none_iff {kinds : Registry} {name : String} :
    kinds.named? name = none ↔ name ∉ kinds.map Kind.name := by
  simp [named?, List.find?_eq_none]

theorem named?_mem {kinds : Registry} {name : String} {k : Kind}
    (h : kinds.named? name = some k) : k ∈ kinds ∧ k.name = name :=
  ⟨List.mem_of_find?_eq_some h, by simpa using List.find?_some h⟩

/-- What every loaded registry satisfies: names are identifiers and occur once, a friendly name
fits on a line, and lines go up from one. -/
structure Valid (kinds : Registry) : Prop where
  names : ∀ k ∈ kinds, isName k.name.toList = true
  distinct : (kinds.map Kind.name).Nodup
  friendly : ∀ k ∈ kinds, '\n' ∉ k.friendlyName.toList
  positive : ∀ k ∈ kinds, 1 ≤ k.line
  increasing : (kinds.map Kind.line).Pairwise (· < ·)

theorem valid_nil : Valid [] := by
  constructor <;> simp

end Registry
end TreeKinds
