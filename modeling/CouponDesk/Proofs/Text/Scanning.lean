import Mathlib.Data.List.Forall2
import Mathlib.Data.List.TakeWhile

/-!
# Scanning

A run of characters of one kind is what a reader takes from a text where the text does not go on
with a character of that kind.  A reader of single items reads a list of them one by one.
-/

set_option autoImplicit false

namespace CouponDesk.Text

variable {p : Char → Bool} {c : Char} {source rest : List Char}

/-! ## Runs of characters -/

/-- A text does not go on with a character of a kind. -/
def Stops (p : Char → Bool) (rest : List Char) : Prop := ∀ c ∈ rest.head?, p c = false

@[simp]
theorem stops_nil : Stops p [] := by simp [Stops]

@[simp]
theorem stops_cons : Stops p (c :: rest) ↔ p c = false := by simp [Stops]

/-- Characters of another kind may stand in front. -/
theorem stops_run (run : ∀ c ∈ source, p c = false) (stops : Stops p rest) :
    Stops p (source ++ rest) := by
  cases source with
  | nil => exact stops
  | cons c source => exact stops_cons.mpr (run c List.mem_cons_self)

theorem takeWhile_run (run : ∀ c ∈ source, p c = true) (stops : Stops p rest) :
    (source ++ rest).takeWhile p = source := by
  rw [List.takeWhile_append_of_pos run]
  cases rest with
  | nil => simp
  | cons c rest =>
      have other : ¬ p c = true := by simp [stops_cons.mp stops]
      rw [List.takeWhile_cons_of_neg other, List.append_nil]

theorem dropWhile_run (run : ∀ c ∈ source, p c = true) (stops : Stops p rest) :
    (source ++ rest).dropWhile p = rest := by
  rw [List.dropWhile_append_of_pos run]
  cases rest with
  | nil => rfl
  | cons c rest =>
      have other : ¬ p c = true := by simp [stops_cons.mp stops]
      rw [List.dropWhile_cons_of_neg other]

end CouponDesk.Text

/-! ## Items read one by one -/

theorem List.mapM_eq_some_iff_forall₂ {α β : Type} {read : α → Option β} {Holds : α → β → Prop}
    {items : List α}
    (reads : ∀ item ∈ items, ∀ x, read item = some x ↔ Holds item x) (xs : List β) :
    items.mapM read = some xs ↔ List.Forall₂ Holds items xs := by
  induction items generalizing xs with
  | nil => simp [eq_comm]
  | cons item rest ih =>
      have first := reads item List.mem_cons_self
      have later := ih fun other member => reads other (List.mem_cons_of_mem item member)
      simp only [List.mapM_cons, Option.bind_eq_bind, Option.bind_eq_some_iff, later, first,
        List.forall₂_cons_left_iff]
      constructor
      · rintro ⟨x, here, others, there, ⟨⟩⟩
        exact ⟨x, others, here, there, rfl⟩
      · rintro ⟨x, others, here, there, rfl⟩
        exact ⟨x, here, others, there, rfl⟩
