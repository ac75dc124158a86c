set_option autoImplicit false

universe u v

/-- A C pointer argument: NULL, or the object it points to. -/
inductive Ptr (α : Type u) where
  | null
  | ref (object : α)
  deriving DecidableEq, Repr

def Ptr.map {α : Type u} {β : Type v} (f : α → β) : Ptr α → Ptr β
  | null => null
  | ref object => ref (f object)

theorem Ptr.map_eq_null_iff {α : Type u} {β : Type v} (f : α → β) (pointer : Ptr α) :
    pointer.map f = null ↔ pointer = null := by
  cases pointer <;> simp [Ptr.map]

def Ptr.Both {α : Type u} {β : Type v} (Related : α → β → Prop) (first : Ptr α)
    (second : Ptr β) : Prop :=
  ∃ object image, first = .ref object ∧ second = .ref image ∧ Related object image
