import Mathlib.Order.Basic
import Mathlib.Order.Defs.Unbundled
import Mathlib.Order.Lattice

/-!
# Comparing by one key after another

A relation that compares by a key and, where the keys agree, by another relation (`ByKey`). It is
total and transitive if the other relation is. The comparison of strings in a locale is one that
is known to be total and transitive only (`Collation`).
-/

namespace Ordered

/-- A comparison of strings by a collation: any two strings are comparable, and consistently so. -/
structure Collation (localeCompare : String → String → Int) : Prop where
  total : ∀ left right, localeCompare left right ≤ 0 ∨ localeCompare right left ≤ 0
  trans : ∀ left middle right, localeCompare left middle ≤ 0 → localeCompare middle right ≤ 0 →
    localeCompare left right ≤ 0

variable {α ι : Type} [LinearOrder ι]

/-- The smaller key comes first; where the keys agree, `next` decides. -/
def ByKey (key : α → ι) (next : α → α → Prop) (a b : α) : Prop :=
  key a < key b ∨ (key a = key b ∧ next a b)

variable {key : α → ι} {next : α → α → Prop}

theorem ByKey.total (h : ∀ a b, next a b ∨ next b a) (a b : α) :
    ByKey key next a b ∨ ByKey key next b a := by
  rcases lt_trichotomy (key a) (key b) with hlt | heq | hgt
  · exact .inl (.inl hlt)
  · rcases h a b with h | h
    · exact .inl (.inr ⟨heq, h⟩)
    · exact .inr (.inr ⟨heq.symm, h⟩)
  · exact .inr (.inl hgt)

theorem ByKey.trans (h : ∀ a b c, next a b → next b c → next a c) {a b c : α}
    (hab : ByKey key next a b) (hbc : ByKey key next b c) : ByKey key next a c := by
  rcases hab with hab | ⟨hab, hnext⟩ <;> rcases hbc with hbc | ⟨hbc, hnext'⟩
  · exact .inl (hab.trans hbc)
  · exact .inl (hbc ▸ hab)
  · exact .inl (hab ▸ hbc)
  · exact .inr ⟨hab.trans hbc, h a b c hnext hnext'⟩

/-- Along the relation the key does not fall. -/
theorem ByKey.key_le {a b : α} (h : ByKey key next a b) : key a ≤ key b := by
  rcases h with h | ⟨h, -⟩
  · exact h.le
  · exact h.le

end Ordered
