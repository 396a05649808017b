import Mathlib.Data.List.Induction
import Mathlib.Tactic.Common

/-!
# Trimming, joining and cutting

Texts over any alphabet in which some characters are blank. Trimming keeps a part of a text with
all characters that are not blank (`trim_isInfix`, `filter_trim`), joining with a blank separator
adds none of them (`filter_join`), and windows that overlap or touch cover a text
(`sublist_windows`): the position `p` is in a window exactly when `p % step` is less than the width
(`mem_windows_of_lt`, `lt_of_mem_windows`).
-/

namespace Trimming

variable {α β : Type} {blank : α → Bool}

/-! ## Trimming -/

/-- The text without the blank characters at both ends. -/
def trim (blank : α → Bool) (text : List α) : List α :=
  ((text.dropWhile blank).reverse.dropWhile blank).reverse

variable (text : List α) {a : α}

theorem dropWhile_filter :
    (text.dropWhile blank).filter (fun a => !blank a) = text.filter fun a => !blank a := by
  induction text with
  | nil => rfl
  | cons a rest ih =>
    cases hblank : blank a with
    | true => rw [List.dropWhile_cons_of_pos hblank, ih, List.filter_cons_of_neg (by simp [hblank])]
    | false => rw [List.dropWhile_cons_of_neg (by simp [hblank])]

/-- Trimming removes blank characters only. -/
theorem filter_trim :
    (trim blank text).filter (fun a => !blank a) = text.filter fun a => !blank a := by
  unfold trim
  rw [List.filter_reverse, dropWhile_filter, List.filter_reverse, List.reverse_reverse,
    dropWhile_filter]

/-- What is left is a part of the text. -/
theorem trim_isInfix : trim blank text <:+: text := by
  have hfront := List.dropWhile_suffix (l := text) blank
  have hback := List.dropWhile_suffix (l := (text.dropWhile blank).reverse) blank
  have hprefix : trim blank text <+: text.dropWhile blank := by
    rw [← List.reverse_suffix]
    unfold trim
    rw [List.reverse_reverse]
    exact hback
  exact hprefix.isInfix.trans hfront.isInfix

theorem trim_map (f : β → α) (text : List β) :
    trim blank (text.map f) = (trim (blank ∘ f) text).map f := by
  unfold trim
  rw [List.dropWhile_map, ← List.map_reverse, List.dropWhile_map, ← List.map_reverse]

/-! ## Joining -/

/-- The texts one after another, with a separator behind a text that is not empty. -/
def join (separator : List α) (texts : List (List α)) : List α :=
  texts.foldl (fun text next => (if text.isEmpty then text else text ++ separator) ++ next) []

theorem join_concat (separator : List α) (texts : List (List α)) (next : List α) :
    join separator (texts ++ [next]) =
      (if (join separator texts).isEmpty then join separator texts
        else join separator texts ++ separator) ++ next := by
  unfold join
  rw [List.foldl_append]
  rfl

theorem mem_join {separator : List α} {texts : List (List α)} (h : a ∈ join separator texts) :
    a ∈ separator ∨ ∃ text ∈ texts, a ∈ text := by
  induction texts using List.reverseRecOn with
  | nil => exact absurd h List.not_mem_nil
  | append_singleton texts next ih =>
    rw [join_concat] at h
    have hbefore : a ∈ join separator texts →
        a ∈ separator ∨ ∃ text ∈ texts ++ [next], a ∈ text := fun hmem =>
      (ih hmem).imp_right fun ⟨text, htext, ha⟩ => ⟨text, List.mem_append_left _ htext, ha⟩
    rcases List.mem_append.1 h with h | h
    · split at h
      · exact hbefore h
      · rcases List.mem_append.1 h with h | h
        · exact hbefore h
        · exact .inl h
    · exact .inr ⟨next, List.mem_append_right _ (List.mem_singleton_self _), h⟩

/-- A blank separator is not seen. -/
theorem filter_join {separator : List α} (hseparator : ∀ a ∈ separator, blank a = true)
    (texts : List (List α)) :
    (join separator texts).filter (fun a => !blank a) =
      texts.flatMap fun text => text.filter fun a => !blank a := by
  have hnone : separator.filter (fun a => !blank a) = [] :=
    List.filter_eq_nil_iff.2 fun a ha => by simp [hseparator a ha]
  induction texts using List.reverseRecOn with
  | nil => rfl
  | append_singleton texts next ih =>
    rw [join_concat, List.filter_append, List.flatMap_append, List.flatMap_singleton, ← ih]
    congr 1
    split
    · rfl
    · rw [List.filter_append, hnone, List.append_nil]

theorem join_map (f : α → β) (separator : List α) (texts : List (List α)) :
    join (separator.map f) (texts.map (List.map f)) = (join separator texts).map f := by
  induction texts using List.reverseRecOn with
  | nil => rfl
  | append_singleton texts next ih =>
    rw [List.map_append, List.map_singleton, join_concat, join_concat, ih, List.map_append]
    congr 1
    rw [List.isEmpty_map]
    split
    · rfl
    · rw [List.map_append]

/-! ## Cutting -/

/-- The windows of a width at the multiples of a step. -/
def windows (step width : Nat) (text : List α) : List (List α) :=
  (List.range ((text.length + step - 1) / step)).map fun k => (text.drop (k * step)).take width

theorem windows_map (f : α → β) (step width : Nat) (text : List α) :
    windows step width (text.map f) = (windows step width text).map (List.map f) := by
  unfold windows
  rw [List.map_map, List.length_map]
  refine List.map_congr_left fun k _ => ?_
  show ((text.map f).drop _).take _ = ((text.drop _).take _).map f
  rw [List.map_take, List.map_drop]

variable {step width : Nat}

/-- The count of the windows is the least one with which the step passes the end. -/
theorem lt_count_iff (hstep : 0 < step) (k length : Nat) :
    k < (length + step - 1) / step ↔ k * step < length := by
  rw [Nat.lt_iff_add_one_le, Nat.le_div_iff_mul_le hstep, Nat.add_mul]
  omega

/-- The first window and the windows behind the first step. -/
theorem windows_of_ne_nil (hstep : 0 < step) {text : List α} (h : text ≠ []) :
    windows step width text = text.take width :: windows step width (text.drop step) := by
  have hlength : 0 < text.length := List.length_pos_iff.2 h
  have hcount : (text.length + step - 1) / step =
      ((text.drop step).length + step - 1) / step + 1 := by
    rw [List.length_drop]
    by_cases hle : step ≤ text.length
    · have hsum : text.length + step - 1 = (text.length - step + step - 1) + step := by omega
      rw [hsum, Nat.add_div_right _ hstep]
    · have hzero : (text.length - step + step - 1) / step = 0 := Nat.div_eq_of_lt (by omega)
      rw [hzero]
      exact Nat.div_eq_of_lt_le (by omega) (by omega)
  unfold windows
  rw [hcount, List.range_succ_eq_map, List.map_cons, List.map_map, Nat.zero_mul, List.drop_zero]
  congr 1
  refine List.map_congr_left fun k _ => ?_
  show (text.drop ((k + 1) * step)).take width = ((text.drop step).drop (k * step)).take width
  rw [List.drop_drop, Nat.succ_mul, Nat.add_comm]

theorem windows_nil : windows step width ([] : List α) = [] := by
  unfold windows
  cases step with
  | zero => rw [Nat.div_zero]; rfl
  | succ step =>
    rw [Nat.div_eq_of_lt (by rw [List.length_nil]; omega)]
    rfl

/-- Windows that overlap or touch cover the text. -/
theorem sublist_windows (hstep : 0 < step) (hwidth : step ≤ width) (text : List α) :
    text.Sublist (windows step width text).flatten := by
  induction hlength : text.length using Nat.strongRecOn generalizing text with
  | ind length ih =>
    by_cases hnil : text = []
    · rw [hnil]
      exact List.nil_sublist _
    · have hpos : 0 < text.length := List.length_pos_iff.2 hnil
      have hrest := ih (text.drop step).length (by rw [List.length_drop]; omega) _ rfl
      rw [windows_of_ne_nil hstep hnil, List.flatten_cons]
      have hsplit : text = text.take step ++ text.drop step := (List.take_append_drop _ _).symm
      have htake : (text.take step).Sublist (text.take width) :=
        (List.take_prefix_take_left hwidth).sublist
      conv_lhs => rw [hsplit]
      exact htake.append hrest

/-- A position that is passed by no step is in a window. -/
theorem mem_windows_of_lt (hstep : 0 < step) {text : List α} {p : Nat} (ha : text[p]? = some a)
    (h : p % step < width) : ∃ window ∈ windows step width text, a ∈ window := by
  have hp : p < text.length := (List.getElem?_eq_some_iff.1 ha).1
  have hdiv : p / step * step + p % step = p := Nat.div_add_mod' p step
  refine ⟨(text.drop (p / step * step)).take width, List.mem_map.2 ⟨p / step, ?_, rfl⟩, ?_⟩
  · exact List.mem_range.2 ((lt_count_iff hstep _ _).2 (by omega))
  · refine List.mem_of_getElem? (i := p % step) ?_
    rw [List.getElem?_take_of_lt h, List.getElem?_drop, hdiv]
    exact ha

/-- What is in a window is at a position that no step passes. -/
theorem lt_of_mem_windows {text window : List α} (hwindow : window ∈ windows step width text)
    (ha : a ∈ window) : ∃ p, text[p]? = some a ∧ p % step < width := by
  obtain ⟨k, -, rfl⟩ := List.mem_map.1 hwindow
  obtain ⟨j, hj⟩ := List.mem_iff_getElem?.1 ha
  have hlt : j < width := by
    by_contra hnot
    rw [List.getElem?_take, if_neg hnot] at hj
    exact absurd hj nofun
  rw [List.getElem?_take_of_lt hlt, List.getElem?_drop] at hj
  refine ⟨k * step + j, hj, ?_⟩
  rw [Nat.add_comm, Nat.add_mul_mod_self_right]
  exact Nat.lt_of_le_of_lt (Nat.mod_le _ _) hlt

end Trimming
