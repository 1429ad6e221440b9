import XmlWorkload.Proofs.Markup.Basic

/-!
# The reference document

What a row of emissions amounts to, said on trees alone.  Each emission goes down the elements that
were added last for as long as their names are those of its path, and adds a chain of new elements
there, the last of which takes what the template says.  The last name of a path always stands for a
new element.
-/

set_option autoImplicit false

namespace XmlWorkload

/-- A template with the path of the element that takes it. -/
structure Emission where
  path : List String
  template : Template

namespace Reference

/-- The number of leading names that two paths share. -/
def sharedNames : List String → List String → Nat
  | a :: first, b :: second => if a = b then sharedNames first second + 1 else 0
  | _, _ => 0

/-- The number of elements that a path goes down behind another path: as many as the two share, but
never to its own last name. -/
def kept (previous path : List String) : Nat := min (sharedNames previous path) (path.length - 1)

/-- New elements one inside the other, the last of which has attributes and content. -/
def chain (attrs : List (String × String)) (content : List Markup) : List String → List Markup
  | [] => []
  | [leaf] => [.element leaf attrs content]
  | name :: rest => [.element name [] (chain attrs content rest)]

/-- Content with something new behind what stands at a path.  Each name of the path has to be that
of the last thing there is. -/
def graft? (fresh : List Markup) : List String → List Markup → Option (List Markup)
  | [], content => some (content ++ fresh)
  | name :: path, content =>
    match content.getLast? with
    | some (.element last attrs inner) =>
      if last = name then
        (graft? fresh path inner).map fun inner =>
          content.dropLast ++ [.element last attrs inner]
      else none
    | _ => none

/-- The path and the content of the root after one more emission. -/
def grow? (grown : List String × List Markup) (emission : Emission) :
    Option (List String × List Markup) := do
  let elements ← emission.template.resolve.toOption
  let level := kept grown.1 emission.path
  let fresh := chain emission.template.attrs.entries
    (Markup.ofElements elements ++ Markup.ofText emission.template.body)
    (emission.path.drop level)
  let content ← graft? fresh (emission.path.take level) grown.2
  pure (emission.path, content)

/-- The path of the last emission, which is empty before the first, and the content of the root. -/
def grown? (emissions : List Emission) : Option (List String × List Markup) :=
  emissions.foldlM grow? ([], [])

/-- The document of a row of emissions, from the root alone on. -/
def tree? (root : String) (emissions : List Emission) : Option Markup :=
  (grown? emissions).map fun grown => .element root [] grown.2

/-- What stands in front of the root. -/
def prologue (declared : Bool) : String :=
  if declared then "<?xml version=\"1.0\" encoding=\"UTF-8\"?>" else ""

/-- The written form of the document of a row of emissions. -/
def text? (declared : Bool) (root : String) (emissions : List Emission) : Option String :=
  (tree? root emissions).map fun tree => prologue declared ++ tree.render

/-- One more emission goes on where those before it led. -/
theorem grown?_concat (emissions : List Emission) (emission : Emission) :
    grown? (emissions ++ [emission]) = (grown? emissions).bind fun grown => grow? grown emission := by
  simp [grown?]

/-- The path of the last emission is the path that was reached. -/
theorem path_of_grown?_concat {emissions : List Emission} {emission : Emission}
    {path : List String} {content : List Markup}
    (h : grown? (emissions ++ [emission]) = some (path, content)) : path = emission.path := by
  rw [grown?_concat] at h
  cases hbefore : grown? emissions with
  | none => simp [hbefore] at h
  | some grown =>
    simp only [hbefore, Option.bind_some, grow?, Option.bind_eq_bind, Option.bind_eq_some_iff,
      Option.pure_def, Option.some.injEq, Prod.mk.injEq] at h
    obtain ⟨elements, -, content', -, hpath, -⟩ := h
    exact hpath.symm

/-- The level of an emission lies above the last name of its path. -/
theorem kept_lt {previous path : List String} (h : path ≠ []) :
    kept previous path < path.length := by
  have := List.length_pos_iff.2 h
  unfold kept
  omega

/-- Every emission has a new element. -/
theorem drop_kept_ne_nil {previous path : List String} (h : path ≠ []) :
    path.drop (kept previous path) ≠ [] := by
  have hlt : kept previous path < path.length := kept_lt h
  intro hnil
  have hle := List.drop_eq_nil_iff.1 hnil
  omega

/-- Two paths agree in the names they share. -/
theorem take_eq_of_le_sharedNames : ∀ {previous path : List String} {count : Nat},
    count ≤ sharedNames previous path → previous.take count = path.take count
  | [], _, count, h => by
    simp only [sharedNames, Nat.le_zero] at h
    simp [h]
  | _ :: _, [], count, h => by
    simp only [sharedNames, Nat.le_zero] at h
    simp [h]
  | a :: previous, b :: path, 0, _ => rfl
  | a :: previous, b :: path, count + 1, h => by
    rw [sharedNames] at h
    split at h
    · next heq => simp [heq, take_eq_of_le_sharedNames (Nat.le_of_succ_le_succ h)]
    · omega

/-- Paths share no more names than the first of them has. -/
theorem sharedNames_le : ∀ previous path : List String,
    sharedNames previous path ≤ previous.length
  | [], _ => Nat.le_refl 0
  | _ :: _, [] => Nat.zero_le _
  | a :: previous, b :: path => by
    have := sharedNames_le previous path
    rw [sharedNames]
    split <;> simp only [List.length_cons] <;> omega

/-- Above its level a path is the one before it. -/
theorem take_kept (previous path : List String) :
    previous.take (kept previous path) = path.take (kept previous path) :=
  take_eq_of_le_sharedNames (Nat.min_le_left _ _)

/-- The level of an emission is one that the path before it has. -/
theorem kept_le (previous path : List String) : kept previous path ≤ previous.length :=
  Nat.le_trans (Nat.min_le_left _ _) (sharedNames_le previous path)

end Reference

end XmlWorkload
