import Mathlib.Data.List.Forall2
import Mathlib.Tactic.Common

/-!
# Following pages

A sequence is read page by page: each page names the offset of the next one, or none. If every
page is the slice that starts at its offset, and a page that names a next one is not empty, then
following the pages reads the sequence exactly once (`Follows.content_eq`) and ends
(`Follows.length_le`).
-/

namespace Paging

variable {α P L ε : Type}

/-- Pages that are read by following the next offsets up to the last page, with the limits that
each of them was asked for with. -/
inductive Follows (paginate : Nat → L → Except ε P) (next : P → Option Nat) :
    Nat → List L → List P → Prop
  | last {offset : Nat} {limits : L} {page : P} (h : paginate offset limits = .ok page)
    (hlast : next page = none) : Follows paginate next offset [limits] [page]
  | more {offset after : Nat} {limits : L} {page : P} {rest : List L} {pages : List P}
    (h : paginate offset limits = .ok page) (hnext : next page = some after)
    (hrest : Follows paginate next after rest pages) :
    Follows paginate next offset (limits :: rest) (page :: pages)

/-- A page that holds some elements from its offset on and names what follows them. -/
structure IsSlice (elements : List α) (offset length : Nat) (content : List α)
    (next : Option Nat) : Prop where
  content_eq : content = (elements.drop offset).take length
  next_eq : next = if offset + length < elements.length then some (offset + length) else none
  progress : offset < elements.length → 0 < length

variable {paginate : Nat → L → Except ε P} {next : P → Option Nat} {elements : List α}
  {content : P → List α} {offset : Nat} {limits : List L} {pages : List P}

/-- The next offset of a slice is behind its own. -/
theorem IsSlice.lt_next {length after : Nat} {part : List α} {following : Option Nat}
    (h : IsSlice elements offset length part following) (hnext : following = some after) :
    offset < after := by
  have heq := h.next_eq.symm.trans hnext
  by_cases hmore : offset + length < elements.length
  · rw [if_pos hmore] at heq
    have hlength := h.progress (by omega)
    have hafter := Option.some.inj heq
    omega
  · rw [if_neg hmore] at heq
    exact absurd heq nofun

/-- What the pages hold is what was left to read. -/
theorem Follows.content_eq (h : Follows paginate next offset limits pages)
    (hslice : ∀ offset limits page, paginate offset limits = .ok page →
      ∃ length, IsSlice elements offset length (content page) (next page)) :
    (pages.map content).flatten = elements.drop offset := by
  induction h with
  | last h hlast =>
    obtain ⟨length, hpage⟩ := hslice _ _ _ h
    have heq := hpage.next_eq.symm.trans hlast
    rw [List.map_singleton, List.flatten_singleton, hpage.content_eq]
    refine List.take_of_length_le ?_
    rw [List.length_drop]
    by_contra hlt
    rw [if_pos (by omega)] at heq
    exact absurd heq nofun
  | more h hnext hrest ih =>
    obtain ⟨_, hpage⟩ := hslice _ _ _ h
    have heq := hpage.next_eq.symm.trans hnext
    rw [List.map_cons, List.flatten_cons, ih, hpage.content_eq]
    split at heq
    · rw [← Option.some.inj heq, ← List.drop_drop, List.take_append_drop]
    · exact absurd heq nofun

/-- What holds of every page holds along the run. -/
theorem Follows.forall₂ {Q : L → P → Prop} (h : Follows paginate next offset limits pages)
    (hpage : ∀ offset limits page, paginate offset limits = .ok page → Q limits page) :
    List.Forall₂ Q limits pages := by
  induction h with
  | last h => exact .cons (hpage _ _ _ h) .nil
  | more h _ _ ih => exact .cons (hpage _ _ _ h) ih

/-- There are no more pages than elements that were left to read, and one. -/
theorem Follows.length_le (h : Follows paginate next offset limits pages)
    (hslice : ∀ offset limits page, paginate offset limits = .ok page →
      ∃ length, IsSlice elements offset length (content page) (next page)) :
    pages.length ≤ elements.length - offset + 1 := by
  induction h with
  | last => exact Nat.le_add_left 1 _
  | more h hnext hrest ih =>
    obtain ⟨_, hpage⟩ := hslice _ _ _ h
    have hlt := hpage.lt_next hnext
    have heq := hpage.next_eq.symm.trans hnext
    split at heq
    · have hafter := Option.some.inj heq
      rw [List.length_cons]
      omega
    · exact absurd heq nofun

end Paging
