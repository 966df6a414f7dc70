import Mathlib.Data.List.Dedup
import Mathlib.Data.List.Perm.Subperm
import Mathlib.Logic.Function.Iterate
import Mathlib.Logic.Relation

/-! Breadth-first search.

A search visits the vertex at the front of its queue and puts the vertices behind it
that were not seen before at the back. What was seen is reached from the start, and
the vertices behind a visited one were seen (`Exact`), so when the queue is empty the
visited vertices are those that are reached. Each vertex is visited once: where all
are among `n`, the queue is empty after `n` steps (`mem_search`). -/
namespace Hopr.Library

structure Search (V : Type) where
  visited : List V
  queue : List V

namespace Search

variable {V : Type}

def seen (s : Search V) : List V := s.visited ++ s.queue

def start (v : V) : Search V := ⟨[], [v]⟩

variable (next : V → List V)

def Reaches : V → V → Prop := Relation.ReflTransGen fun v w => w ∈ next v

structure Exact (v : V) (s : Search V) : Prop where
  nodup : s.seen.Nodup
  start : v ∈ s.seen
  reached : ∀ w ∈ s.seen, Reaches next v w
  behind : ∀ w ∈ s.visited, ∀ x ∈ next w, x ∈ s.seen

theorem exact_start (v : V) : Exact next v (start v) where
  nodup := List.nodup_singleton v
  start := List.mem_singleton_self v
  reached w hw := by
    rw [List.mem_singleton.mp hw]
    exact .refl
  behind _ hw := nomatch hw

/-- Once the queue is empty, what is visited is what is reached. -/
theorem Exact.complete {v : V} {s : Search V} (h : Exact next v s) (hqueue : s.queue = []) {w : V} :
    w ∈ s.visited ↔ Reaches next v w := by
  have hall : s.seen = s.visited := by rw [seen, hqueue, List.append_nil]
  constructor
  · intro hw
    exact h.reached w (hall ▸ hw)
  · intro hreach
    induction hreach with
    | refl => exact hall ▸ h.start
    | tail _ hlast ih => exact hall ▸ h.behind _ ih _ hlast

variable [DecidableEq V]

def step (s : Search V) : Search V :=
  match s.queue with
  | [] => s
  | v :: rest => ⟨s.visited ++ [v], rest ++ ((next v).filter (· ∉ s.seen)).dedup⟩

/-- What is visited in so many steps, in order. -/
def search (n : Nat) (v : V) : List V := ((step next)^[n] (start v)).visited

theorem seen_step {s : Search V} {v : V} {rest : List V} (hqueue : s.queue = v :: rest) :
    (step next s).seen = s.seen ++ ((next v).filter (· ∉ s.seen)).dedup := by
  simp only [step, hqueue, seen, List.append_assoc, List.cons_append, List.nil_append]

variable {next} in
theorem Exact.step {v : V} {s : Search V} (h : Exact next v s) : Exact next v (step next s) := by
  cases hqueue : s.queue with
  | nil => simpa only [Search.step, hqueue] using h
  | cons w rest =>
    have hseen := seen_step next hqueue
    have hw : w ∈ s.seen := List.mem_append_right _ (hqueue ▸ List.mem_cons_self)
    have hfresh : ∀ {x}, x ∈ ((next w).filter (· ∉ s.seen)).dedup ↔ x ∈ next w ∧ x ∉ s.seen := by
      intro x
      rw [List.mem_dedup, List.mem_filter, decide_eq_true_eq]
    constructor
    case nodup =>
      rw [hseen, List.nodup_append]
      refine ⟨h.nodup, List.nodup_dedup _, ?_⟩
      rintro x hx y hy rfl
      exact (hfresh.mp hy).2 hx
    case start =>
      rw [hseen]
      exact List.mem_append_left _ h.start
    case reached =>
      intro x hx
      rw [hseen, List.mem_append] at hx
      cases hx with
      | inl hold => exact h.reached x hold
      | inr hnew => exact (h.reached w hw).tail (hfresh.mp hnew).1
    case behind =>
      intro x hx y hy
      rw [hseen, List.mem_append]
      by_cases hold : y ∈ s.seen
      · exact .inl hold
      · simp only [Search.step, hqueue, List.mem_append, List.mem_singleton] at hx
        cases hx with
        | inl hvisited => exact absurd (h.behind x hvisited y hy) hold
        | inr heq => exact .inr (hfresh.mpr ⟨heq ▸ hy, hold⟩)

theorem exact_iterate (v : V) (n : Nat) : Exact next v ((Search.step next)^[n] (Search.start v)) := by
  induction n with
  | zero => exact exact_start next v
  | succ n ih =>
    rw [Function.iterate_succ_apply']
    exact ih.step

/-- One vertex is visited at a time. -/
theorem visits (v : V) (n : Nat) : ((Search.step next)^[n] (Search.start v)).queue = [] ∨
    ((Search.step next)^[n] (Search.start v)).visited.length = n := by
  induction n with
  | zero => exact .inr rfl
  | succ n ih =>
    rw [Function.iterate_succ_apply']
    generalize (Search.step next)^[n] (Search.start v) = s at ih
    cases hqueue : s.queue with
    | nil => exact .inl (by simp only [Search.step, hqueue])
    | cons w rest =>
      right
      simp only [Search.step, hqueue, List.length_append, List.length_singleton]
      rw [hqueue] at ih
      cases ih with
      | inl hnil => cases hnil
      | inr hlength => rw [hlength]

variable {next} in
/-- The search is over when it has visited as many vertices as there are. -/
theorem mem_search {v w : V} {vertices : List V} (hv : v ∈ vertices)
    (hnext : ∀ x ∈ vertices, next x ⊆ vertices) : w ∈ search next vertices.length v ↔ Reaches next v w := by
  have hexact := exact_iterate next v vertices.length
  apply hexact.complete
  have hreached : ∀ x, Reaches next v x → x ∈ vertices := by
    intro x hx
    induction hx with
    | refl => exact hv
    | tail _ hlast ih => exact hnext _ ih hlast
  cases visits next v vertices.length with
  | inl hqueue => exact hqueue
  | inr hlength =>
    have hcount := (List.subperm_of_subset hexact.nodup fun x hx => hreached x (hexact.reached x hx)).length_le
    rw [seen, List.length_append, hlength] at hcount
    exact List.eq_nil_of_length_eq_zero (by omega)

end Search

end Hopr.Library
