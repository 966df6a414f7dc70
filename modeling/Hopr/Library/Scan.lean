import Mathlib.Data.List.Basic

/-! Streams of items that are turned into events one after the other.

What is kept between the items decides what an item is turned into; `scanned` are the
events of a stream, and `kept` is what is left when it was polled to its end. -/
namespace Hopr.Library

section Scan
variable {S X E : Type} (poll : S → X → S × List E)

def scanned : S → List X → List E
  | _, [] => []
  | s, x :: rest => (poll s x).2 ++ scanned (poll s x).1 rest

def kept (s : S) (items : List X) : S := items.foldl (fun s x => (poll s x).1) s

@[simp] theorem scanned_nil (s : S) : scanned poll s [] = [] := rfl

theorem scanned_concat (s : S) (items : List X) (x : X) :
    scanned poll s (items ++ [x]) = scanned poll s items ++ (poll (kept poll s items) x).2 := by
  induction items generalizing s with
  | nil => exact List.append_nil _
  | cons y rest ih =>
    rw [List.cons_append, scanned, scanned, ih, List.append_assoc]
    rfl

/-- An event is one that some item is turned into. -/
theorem mem_scanned {s : S} {items : List X} {e : E} (h : e ∈ scanned poll s items) :
    ∃ s', ∃ x ∈ items, e ∈ (poll s' x).2 := by
  induction items generalizing s with
  | nil => cases h
  | cons y rest ih =>
    rcases List.mem_append.mp h with hfirst | hrest
    · exact ⟨s, y, List.mem_cons_self, hfirst⟩
    · obtain ⟨s', x, hx, he⟩ := ih hrest
      exact ⟨s', x, List.mem_cons_of_mem _ hx, he⟩

/-- What every poll preserves is kept. -/
theorem kept_invariant {I : S → Prop} (hstep : ∀ s x, I s → I (poll s x).1) {s : S} (h : I s) (items : List X) :
    I (kept poll s items) := by
  induction items generalizing s with
  | nil => exact h
  | cons y rest ih => exact ih (hstep s y h)

end Scan

end Hopr.Library
