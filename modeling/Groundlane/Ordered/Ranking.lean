import Mathlib.Data.List.Sort

/-!
# Filtering a ranking

A stable sort commutes with a filter (`filter_insertionSort`). Keeping the first entries of a
ranking does not: filtering the best `n` entries gives the best `n` of the filtered entries exactly
if the filter drops none of the first `n` or keeps none of the others (`filter_take_eq_iff`).
-/

namespace Ordered

variable {α : Type} {r : α → α → Prop} [DecidableRel r]

/-- A dropped element was not there. -/
theorem filter_orderedInsert_of_neg {p : α → Bool} {a : α} (ha : p a = false) (l : List α) :
    (l.orderedInsert r a).filter p = l.filter p := by
  induction l with
  | nil => simp [ha]
  | cons b l ih =>
    rw [List.orderedInsert_cons]
    by_cases hab : r a b
    · rw [if_pos hab, List.filter_cons_of_neg (by simp [ha])]
    · rw [if_neg hab, List.filter_cons, List.filter_cons, ih]

/-- A kept element is inserted among the kept ones. -/
theorem filter_orderedInsert_of_pos [IsTrans α r] {p : α → Bool} {a : α} (ha : p a = true)
    {l : List α} (hl : l.Pairwise r) :
    (l.orderedInsert r a).filter p = (l.filter p).orderedInsert r a := by
  induction l with
  | nil => simp [ha]
  | cons b l ih =>
    obtain ⟨hb, hl⟩ := List.pairwise_cons.1 hl
    rw [List.orderedInsert_cons]
    by_cases hab : r a b
    · rw [if_pos hab, List.filter_cons_of_pos ha]
      -- Everything behind `b` comes behind `a` too, so `a` stands first among the kept.
      have hfirst : ∀ c ∈ (b :: l).filter p, r a c := by
        intro c hc
        rcases List.mem_cons.1 (List.mem_of_mem_filter hc) with rfl | hc
        · exact hab
        · exact Trans.trans hab (hb c hc)
      cases hfilter : (b :: l).filter p with
      | nil => rfl
      | cons c rest =>
        rw [hfilter] at hfirst
        rw [List.orderedInsert_cons, if_pos (hfirst c List.mem_cons_self)]
    · rw [if_neg hab]
      by_cases hpb : p b = true
      · rw [List.filter_cons_of_pos hpb, List.filter_cons_of_pos hpb, ih hl,
          List.orderedInsert_cons, if_neg hab]
      · rw [List.filter_cons_of_neg hpb, List.filter_cons_of_neg hpb, ih hl]

/-- A stable sort commutes with a filter. -/
theorem filter_insertionSort [IsTrans α r] [Std.Total r] (p : α → Bool) (l : List α) :
    (l.insertionSort r).filter p = (l.filter p).insertionSort r := by
  induction l with
  | nil => rfl
  | cons a l ih =>
    rw [List.insertionSort_cons]
    cases ha : p a with
    | false => rw [filter_orderedInsert_of_neg ha, ih, List.filter_cons_of_neg (by simp [ha])]
    | true =>
      rw [filter_orderedInsert_of_pos ha (List.pairwise_insertionSort r l), ih,
        List.filter_cons_of_pos ha, List.insertionSort_cons]

/-- When the best of the kept are the kept of the best. -/
theorem filter_take_eq_iff (p : α → Bool) (n : Nat) (l : List α) :
    (l.take n).filter p = (l.filter p).take n ↔
      (∀ a ∈ l.take n, p a = true) ∨ ∀ a ∈ l.drop n, p a = false := by
  have hsplit : l.filter p = (l.take n).filter p ++ (l.drop n).filter p := by
    rw [← List.filter_append, List.take_append_drop]
  have hlength : ((l.take n).filter p).length ≤ n :=
    (List.length_filter_le ..).trans (List.length_take_le ..)
  rw [hsplit, List.take_append, List.take_of_length_le hlength, List.self_eq_append_right,
    List.take_eq_nil_iff]
  constructor
  · rintro (hfull | hnone)
    · refine .inl (List.length_filter_eq_length_iff.1 ?_)
      have htake : (l.take n).length ≤ n := List.length_take_le ..
      have := List.length_filter_le p (l.take n)
      omega
    · exact .inr fun a ha => Bool.eq_false_iff.2 (List.filter_eq_nil_iff.1 hnone a ha)
  · rintro (hall | hnone)
    · rw [List.filter_eq_self.2 hall]
      by_cases hn : l.length ≤ n
      · right
        rw [List.drop_of_length_le hn, List.filter_nil]
      · left
        rw [List.length_take]
        omega
    · exact .inr (List.filter_eq_nil_iff.2 fun a ha => by simp [hnone a ha])

end Ordered
