import Mathlib.Data.List.Basic

/-! What was said last.

The entries of a list may each say something about a value; `latest` is what the last
of those that do says, or else what the value was before. What it was before matters
only if nothing is said. -/
namespace Hopr.Library

section Latest
variable {A B : Type} (tells : A → Option B)

def latest (before : B) (entries : List A) : B := entries.foldl (fun b a => (tells a).getD b) before

variable {tells}

@[simp] theorem latest_nil (before : B) : latest tells before [] = before := rfl

theorem latest_cons (before : B) (a : A) (rest : List A) :
    latest tells before (a :: rest) = latest tells ((tells a).getD before) rest := rfl

theorem latest_append (before : B) (as bs : List A) :
    latest tells before (as ++ bs) = latest tells (latest tells before as) bs := List.foldl_append

theorem latest_none {before : B} {entries : List A} (h : ∀ a ∈ entries, tells a = none) :
    latest tells before entries = before := by
  induction entries with
  | nil => rfl
  | cons a rest ih =>
    rw [latest_cons, h a List.mem_cons_self]
    exact ih fun b hb => h b (List.mem_cons_of_mem a hb)

variable (tells) in
/-- Either nothing is said, or what was before does not matter. -/
theorem latest_cases (entries : List A) : (∀ a ∈ entries, tells a = none) ∨
    ∀ before before', latest tells before entries = latest tells before' entries := by
  induction entries with
  | nil => exact .inl fun _ ha => (nomatch ha)
  | cons a rest ih =>
    cases ih with
    | inr hrest => exact .inr fun before before' => hrest _ _
    | inl hnone =>
      cases ha : tells a with
      | none =>
        left
        intro b hb
        cases List.mem_cons.mp hb with
        | inl heq => rw [heq, ha]
        | inr hmem => exact hnone b hmem
      | some b =>
        right
        intro before before'
        rw [latest_cons, latest_cons, ha]
        rfl

/-- Entries that say nothing may be left out. -/
theorem latest_silent {before : B} {as bs cs : List A} (h : ∀ b ∈ bs, tells b = none) :
    latest tells before (as ++ bs ++ cs) = latest tells before (as ++ cs) := by
  rw [latest_append, latest_append _ as bs, latest_none h, latest_append]

/-- What is said last is still said last when what was said first is not heard any more. -/
theorem latest_later {now : B} {as bs : List A} (h : latest tells now (as ++ bs) = now) :
    latest tells now bs = now := by
  rcases latest_cases tells bs with hnone | hany
  · exact latest_none hnone
  · rw [latest_append] at h
    exact (hany _ _).trans h

/-- What is said last goes on to be, after more is said. -/
theorem latest_further {now : B} {as bs : List A} (h : latest tells now as = now) :
    latest tells (latest tells now bs) (as ++ bs) = latest tells now bs := by
  rcases latest_cases tells bs with hnone | hany
  · rw [latest_none hnone, latest_append, h, latest_none hnone]
  · rw [latest_append]
    exact hany _ _

theorem latest_again (before : B) (entries : List A) :
    latest tells (latest tells before entries) entries = latest tells before entries := by
  rcases latest_cases tells entries with hnone | hany
  · rw [latest_none hnone, latest_none hnone]
  · exact hany _ _

end Latest

end Hopr.Library
