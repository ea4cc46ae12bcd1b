import Mathlib.Data.List.Basic

namespace Instancy.Library

variable {place : Nat}

section Pointwise

variable {A B C : Type}

/-- The lists are equally long, and their elements are related at each place. -/
structure Pointwise (related : Nat → A → B → Prop) (left : List A) (right : List B) : Prop where
  length : left.length = right.length
  at_place : ∀ place first second, left[place]? = some first → right[place]? = some second → related place first second

variable {items : List A}

/-- A place of the updated list holds the new element or what it held before. -/
theorem getElem?_set_of_some {old new : A} (found : items[place]? = some old) (other : Nat) :
    (items.set place new)[other]? = if place = other then some new else items[other]? := by
  obtain ⟨bound, _⟩ := List.getElem?_eq_some_iff.mp found
  by_cases same : place = other
  · subst same
    rw [List.getElem?_set_self bound, if_pos rfl]
  · rw [List.getElem?_set_ne same, if_neg same]

/-- Every element has a property, which may depend on its place. -/
def AtEach (holds : Nat → A → Prop) (items : List A) : Prop := ∀ place item, items[place]? = some item → holds place item

theorem AtEach.map {update : A → B} {holds : Nat → B → Prop}
    (each : AtEach (fun place item => holds place (update item)) items) : AtEach holds (items.map update) := by
  intro place item found
  rw [List.getElem?_map, Option.map_eq_some_iff] at found
  obtain ⟨before, here, rfl⟩ := found
  exact each place before here

namespace Pointwise

variable {related : Nat → A → B → Prop} {left : List A} {right : List B}

theorem right_of_left (pointwise : Pointwise related left right) {first : A}
    (found : left[place]? = some first) : ∃ second, right[place]? = some second ∧ related place first second := by
  obtain ⟨bound, _⟩ := List.getElem?_eq_some_iff.mp found
  have inside : place < right.length := pointwise.length ▸ bound
  exact ⟨right[place], List.getElem?_eq_getElem inside,
    pointwise.at_place place first _ found (List.getElem?_eq_getElem inside)⟩

theorem left_of_right (pointwise : Pointwise related left right) {second : B}
    (found : right[place]? = some second) : ∃ first, left[place]? = some first ∧ related place first second := by
  obtain ⟨bound, _⟩ := List.getElem?_eq_some_iff.mp found
  have inside : place < left.length := pointwise.length ▸ bound
  exact ⟨left[place], List.getElem?_eq_getElem inside,
    pointwise.at_place place _ second (List.getElem?_eq_getElem inside) found⟩

theorem refl {related : Nat → A → A → Prop} (same : ∀ place item, related place item item) (items : List A) :
    Pointwise related items items where
  length := rfl
  at_place place first second left right := by
    cases left.symm.trans right
    exact same place first

theorem trans {before : Nat → A → B → Prop} {after : Nat → B → C → Prop} {both : Nat → A → C → Prop}
    (compose : ∀ place first second third, before place first second → after place second third → both place first third)
    {middle : List B} {last : List C} (first : Pointwise before left middle) (second : Pointwise after middle last) :
    Pointwise both left last where
  length := first.length.trans second.length
  at_place place start finish left right := by
    obtain ⟨between, found, one⟩ := first.right_of_left left
    exact compose place start between finish one (second.at_place place between finish found right)

theorem cons {related : A → B → Prop} {first : A} {second : B} (here : related first second)
    (later : Pointwise (fun _ => related) left right) : Pointwise (fun _ => related) (first :: left) (second :: right) where
  length := congrArg Nat.succ later.length
  at_place place one two left right := by
    cases place with
    | zero =>
      cases left
      cases right
      exact here
    | succ place => exact later.at_place place one two left right

/-- Only one place is updated. -/
theorem set {related : Nat → A → A → Prop} {old new : A} (found : items[place]? = some old) (here : related place old new)
    (elsewhere : ∀ other item, place ≠ other → related other item item) :
    Pointwise related items (items.set place new) where
  length := List.length_set.symm
  at_place other first second left right := by
    rw [getElem?_set_of_some found] at right
    split at right
    · rename_i same
      subst same
      cases found.symm.trans left
      cases right
      exact here
    · rename_i apart
      cases left.symm.trans right
      exact elsewhere other first apart

/-- Every place is updated. -/
theorem map {update : A → B} (each : ∀ place item, related place item (update item)) :
    Pointwise related items (items.map update) where
  length := (List.length_map update).symm
  at_place place first second left right := by
    rw [List.getElem?_map, left] at right
    cases right
    exact each place first

/-- What holds on the left and is kept by the relation holds on the right. -/
theorem atEach {before : Nat → A → Prop} {after : Nat → B → Prop} (pointwise : Pointwise related left right)
    (keeps : ∀ place first second, related place first second → before place first → after place second)
    (holds : AtEach before left) : AtEach after right := by
  intro place second found
  obtain ⟨first, earlier, here⟩ := pointwise.left_of_right found
  exact keeps place first second here (holds place first earlier)

/-- The lists of views are equal exactly if the views are equal at each place. -/
theorem map_eq_iff {view : A → C} {other : B → C} (pointwise : Pointwise related left right) :
    left.map view = right.map other ↔
      ∀ (place : Nat) (first : A) (second : B), left[place]? = some first → right[place]? = some second → view first = other second := by
  constructor
  · intro same place first second left right
    have here := congrArg (fun views => views[place]?) same
    simpa [left, right] using here
  · intro each
    apply List.ext_getElem
    · rw [List.length_map, List.length_map, pointwise.length]
    · intro place inside outside
      rw [List.length_map] at inside outside
      rw [List.getElem_map, List.getElem_map]
      exact each place _ _ (List.getElem?_eq_getElem inside) (List.getElem?_eq_getElem outside)

end Pointwise

end Pointwise

end Instancy.Library
