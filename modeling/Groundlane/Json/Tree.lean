import Mathlib.Data.List.Perm.Basic
import Groundlane.Text.Parse

/-!
# JSON trees over code units

JSON values whose strings and keys are any sequences of code units, and the text that
`JSON.stringify` writes for them, also where a string holds unpaired surrogates. The text
determines the tree (`Tree.text_injective`). A tree contains a text when one of its strings or keys
does (`Tree.Contains`).
-/

namespace Utf16

/-- A JSON value with strings and keys of code units. -/
inductive Tree where
  | null
  | bool (value : Bool)
  | num (value : Numeral)
  | str (value : Text)
  | arr (items : List Tree)
  | obj (members : List (Text × Tree))

/-- `join`. -/
def join (separator : Text) : List Text → Text
  | [] => []
  | [piece] => piece
  | piece :: rest => piece ++ separator ++ join separator rest

/-- Each piece behind a separator. -/
def joinMore (separator : Text) (pieces : List Text) : Text :=
  pieces.flatMap fun piece => separator ++ piece

theorem join_cons (separator piece : Text) (rest : List Text) :
    join separator (piece :: rest) = piece ++ joinMore separator rest := by
  induction rest generalizing piece with
  | nil => simp [join, joinMore]
  | cons next rest ih => simp [join, ih, joinMore, List.flatMap_cons]

namespace Tree

mutual

/-- `JSON.stringify`. -/
def text : Tree → Text
  | null => ascii "null"
  | bool true => ascii "true"
  | bool false => ascii "false"
  | num value => ascii value.text
  | str value => quote value
  | arr items => 0x5b :: (join [0x2c] (itemTexts items) ++ [0x5d])
  | obj members => 0x7b :: (join [0x2c] (memberTexts members) ++ [0x7d])

/-- The texts of the items of an array. -/
def itemTexts : List Tree → List Text
  | [] => []
  | item :: rest => item.text :: itemTexts rest

/-- The texts of the members of an object. -/
def memberTexts : List (Text × Tree) → List Text
  | [] => []
  | (key, value) :: rest => (quote key ++ 0x3a :: value.text) :: memberTexts rest

end

theorem itemTexts_eq (items : List Tree) : itemTexts items = items.map text := by
  induction items with
  | nil => rfl
  | cons item rest ih => rw [itemTexts, ih, List.map_cons]

/-- The text of a member. -/
def memberText (member : Text × Tree) : Text := quote member.1 ++ 0x3a :: member.2.text

theorem memberTexts_eq (members : List (Text × Tree)) :
    memberTexts members = members.map memberText := by
  induction members with
  | nil => rfl
  | cons member rest ih => rw [memberTexts, ih, List.map_cons, memberText]

/-- An induction over trees goes through the items and the members. -/
theorem induct {motive : Tree → Prop} (null : motive null) (bool : ∀ value, motive (bool value))
    (num : ∀ value, motive (num value)) (str : ∀ value, motive (str value))
    (arr : ∀ items, (∀ item ∈ items, motive item) → motive (arr items))
    (obj : ∀ members : List (Text × Tree), (∀ member ∈ members, motive member.2) →
      motive (obj members)) (tree : Tree) : motive tree :=
  @Tree.rec motive (fun items => ∀ item ∈ items, motive item)
    (fun members => ∀ member ∈ members, motive member.2) (fun member => motive member.2)
    null bool num str arr obj
    (fun _ h => absurd h List.not_mem_nil)
    (fun _ _ hitem hrest => List.forall_mem_cons.2 ⟨hitem, hrest⟩)
    (fun _ h => absurd h List.not_mem_nil)
    (fun _ _ hmember hrest => List.forall_mem_cons.2 ⟨hmember, hrest⟩)
    (fun _ _ h => h) tree

/-! ## The text determines the tree -/

/-- A code unit of a numeral. -/
def isNumeralUnit (unit : UInt16) : Bool :=
  unit < 0x80 && isNumeralChar (Char.ofNat unit.toNat)

/-- What may follow a value: nothing that could continue a number. -/
def Stops (rest : Text) : Prop :=
  ∀ unit tail, rest = unit :: tail → isNumeralUnit unit = false

theorem stops_nil : Stops [] := nofun

theorem stops_cons {unit : UInt16} {tail : Text} (h : isNumeralUnit unit = false) :
    Stops (unit :: tail) := by
  rintro _ _ ⟨⟩
  exact h

/-- The characters of numerals are ASCII characters. -/
theorem toNat_of_isNumeralChar {c : Char} (h : isNumeralChar c = true) : c.toNat < 0x80 := by
  simp only [isNumeralChar, Bool.or_eq_true, beq_iff_eq] at h
  rcases h with (((hdigit | rfl) | rfl) | rfl) | rfl
  · have := (Parse.toNat_of_isDigit hdigit).2.1
    omega
  all_goals decide

variable {rest rest' : Text}

/-- A numeral is read back from its units. -/
theorem numeral_append_inj {left right : Numeral} (hrest : Stops rest) (hrest' : Stops rest')
    (h : ascii left.text ++ rest = ascii right.text ++ rest') : left = right ∧ rest = rest' := by
  have hunit : ∀ c : Char, isNumeralChar c = true →
      Char.ofNat (UInt16.ofNat c.toNat).toNat = c ∧ UInt16.ofNat c.toNat < 0x80 := by
    intro c hc
    have hlt := toNat_of_isNumeralChar hc
    have htoNat : (UInt16.ofNat c.toNat).toNat = c.toNat := by
      rw [UInt16.toNat_ofNat']
      omega
    refine ⟨by rw [htoNat, Char.ofNat_toNat], ?_⟩
    rw [UInt16.lt_iff_toNat_lt, htoNat]
    exact hlt
  have htake : ∀ (n : Numeral) (tail : Text), Stops tail →
      (ascii n.text ++ tail).takeWhile isNumeralUnit = ascii n.text := by
    intro n tail htail
    rw [List.takeWhile_append_of_pos]
    · cases tail with
      | nil => simp
      | cons unit tail => simp [htail unit tail rfl]
    · intro unit hmem
      obtain ⟨c, hc, rfl⟩ := List.mem_map.1 hmem
      have hnumeral := List.all_eq_true.1 n.wf.2 c hc
      obtain ⟨hchar, hlt⟩ := hunit c hnumeral
      rw [isNumeralUnit, hchar, hnumeral, Bool.and_true]
      exact decide_eq_true hlt
  have hread : ∀ n : Numeral,
      (ascii n.text).map (fun unit => Char.ofNat unit.toNat) = n.text.toList := by
    intro n
    unfold ascii
    rw [List.map_map]
    refine (List.map_congr_left fun c hc => ?_).trans (List.map_id _)
    exact (hunit c (List.all_eq_true.1 n.wf.2 c hc)).1
  have htext : ascii left.text = ascii right.text := by
    rw [← htake left rest hrest, h, htake right rest' hrest']
  refine ⟨?_, List.append_cancel_left (htext ▸ h)⟩
  have hchars := (hread left).symm.trans (htext ▸ hread right)
  cases left
  cases right
  simpa [String.toList_inj] using hchars

/-- The closing quote ends a string: text and continuation are determined. -/
theorem quote_append_inj {left right rest rest' : Text}
    (h : quote left ++ rest = quote right ++ rest') : left = right ∧ rest = rest' := by
  rw [Parse.quote_append, Parse.quote_append] at h
  have hread := congrArg Parse.string (List.cons.inj h).2
  rw [Parse.string_quote, Parse.string_quote] at hread
  exact Prod.mk.inj (Option.some.inj hread)

/-- The kind of a value, as the first unit of its text shows it. -/
private def lead : Tree → UInt16
  | null => 0x6e
  | bool true => 0x74
  | bool false => 0x66
  | num _ => 0x30
  | str _ => 0x22
  | arr _ => 0x5b
  | obj _ => 0x7b

/-- All numerals show the same kind. -/
private def kindOf (unit : UInt16) : UInt16 :=
  if isNumeralUnit unit then 0x30 else unit

private theorem text_lead (tree : Tree) :
    ∃ unit rest, tree.text = unit :: rest ∧ kindOf unit = tree.lead := by
  cases tree with
  | null => exact ⟨0x6e, ascii "ull", by decide, by decide⟩
  | bool value =>
    cases value with
    | true => exact ⟨0x74, ascii "rue", by decide, by decide⟩
    | false => exact ⟨0x66, ascii "alse", by decide, by decide⟩
  | num value =>
    obtain ⟨hne, hall⟩ := value.wf
    obtain ⟨c, rest, htext⟩ := List.exists_cons_of_ne_nil hne
    rw [htext, List.all_cons, Bool.and_eq_true] at hall
    refine ⟨UInt16.ofNat c.toNat, rest.map fun c => UInt16.ofNat c.toNat, ?_, ?_⟩
    · rw [text, ascii, htext, List.map_cons]
    · have hlt := toNat_of_isNumeralChar hall.1
      have htoNat : (UInt16.ofNat c.toNat).toNat = c.toNat := by
        rw [UInt16.toNat_ofNat']
        omega
      have hsmall : UInt16.ofNat c.toNat < 0x80 := by
        rw [UInt16.lt_iff_toNat_lt, htoNat]
        exact hlt
      have hnumeral : isNumeralUnit (UInt16.ofNat c.toNat) = true := by
        simp [isNumeralUnit, hsmall, htoNat, Char.ofNat_toNat, hall.1]
      rw [kindOf, if_pos hnumeral]
      rfl
  | str value => exact ⟨0x22, _, rfl, (by decide : kindOf 0x22 = 0x22)⟩
  | arr items => exact ⟨0x5b, _, rfl, (by decide : kindOf 0x5b = 0x5b)⟩
  | obj members => exact ⟨0x7b, _, rfl, (by decide : kindOf 0x7b = 0x7b)⟩

private theorem lead_eq {left right : Tree} (h : left.text ++ rest = right.text ++ rest') :
    left.lead = right.lead := by
  obtain ⟨_, _, hleft, hunit⟩ := text_lead left
  obtain ⟨_, _, hright, hunit'⟩ := text_lead right
  rw [hleft, hright, List.cons_append, List.cons_append] at h
  rw [← hunit, ← hunit', (List.cons.inj h).1]

/-- No value starts with a closing bracket. -/
private theorem text_ne_bracket (tree : Tree) (rest rest' : Text) :
    tree.text ++ rest ≠ 0x5d :: rest' := by
  obtain ⟨_, _, htext, hunit⟩ := text_lead tree
  intro h
  rw [htext, List.cons_append] at h
  obtain ⟨rfl, -⟩ := List.cons.inj h
  have hlead : tree.lead = 0x5d := hunit.symm.trans (by decide)
  cases tree with
  | bool value => cases value <;> exact absurd hlead (by simp [lead])
  | _ => exact absurd hlead (by simp [lead])

/-- The pieces of an array or object, each behind a comma, and the closing bracket. -/
private def more (close : UInt16) (pieces : List Text) : Text :=
  joinMore [0x2c] pieces ++ [close]

private theorem more_cons (close : UInt16) (piece : Text) (rest : List Text) :
    more close (piece :: rest) = 0x2c :: (piece ++ more close rest) := by
  simp [more, joinMore, List.flatMap_cons]

private theorem join_close (close : UInt16) (piece : Text) (rest : List Text) :
    join [0x2c] (piece :: rest) ++ [close] = piece ++ more close rest := by
  rw [join_cons, List.append_assoc, more]

private theorem stops_more {close : UInt16} (hclose : isNumeralUnit close = false)
    (pieces : List Text) (rest : Text) : Stops (more close pieces ++ rest) := by
  cases pieces with
  | nil => exact stops_cons hclose
  | cons piece pieces =>
    rw [more_cons]
    exact stops_cons (by decide)

section Pieces

variable {α : Type} {write : α → Text} {close : UInt16}

/-- The pieces behind commas are determined when each of them is. -/
private theorem more_append_inj (hcomma : close ≠ 0x2c) (hclose : isNumeralUnit close = false)
    {lefts rights : List α} (hinj : ∀ left ∈ lefts, ∀ right {rest rest' : Text}, Stops rest →
      Stops rest' → write left ++ rest = write right ++ rest' → left = right ∧ rest = rest')
    (h : more close (lefts.map write) ++ rest = more close (rights.map write) ++ rest') :
    lefts = rights ∧ rest = rest' := by
  induction lefts generalizing rights with
  | nil =>
    cases rights with
    | nil => exact ⟨rfl, (List.cons.inj h).2⟩
    | cons right rights =>
      rw [List.map_cons, more_cons] at h
      exact absurd (List.cons.inj h).1 hcomma
  | cons left lefts ih =>
    cases rights with
    | nil =>
      rw [List.map_cons, more_cons] at h
      exact absurd (List.cons.inj h).1.symm hcomma
    | cons right rights =>
      rw [List.map_cons, List.map_cons, more_cons, more_cons, List.cons_append,
        List.cons_append, List.append_assoc, List.append_assoc] at h
      obtain ⟨rfl, hmore⟩ := hinj left List.mem_cons_self right (stops_more hclose _ _)
        (stops_more hclose _ _) (List.cons.inj h).2
      obtain ⟨rfl, rfl⟩ := ih (fun other hother => hinj other (List.mem_cons_of_mem _ hother))
        hmore
      exact ⟨rfl, rfl⟩

/-- The pieces in brackets are determined when each of them is and none is empty. -/
private theorem join_append_inj (hcomma : close ≠ 0x2c) (hclose : isNumeralUnit close = false)
    {lefts rights : List α} (hinj : ∀ left ∈ lefts, ∀ right {rest rest' : Text}, Stops rest →
      Stops rest' → write left ++ rest = write right ++ rest' → left = right ∧ rest = rest')
    (hne : ∀ (piece : α) (rest rest' : Text), write piece ++ rest ≠ close :: rest')
    (h : join [0x2c] (lefts.map write) ++ [close] ++ rest =
      join [0x2c] (rights.map write) ++ [close] ++ rest') : lefts = rights ∧ rest = rest' := by
  cases lefts with
  | nil =>
    cases rights with
    | nil => exact ⟨rfl, (List.cons.inj h).2⟩
    | cons right rights =>
      rw [List.map_cons, join_close, List.append_assoc (write right)] at h
      exact absurd h.symm (hne right _ rest)
  | cons left lefts =>
    cases rights with
    | nil =>
      rw [List.map_cons, join_close, List.append_assoc] at h
      exact absurd h (hne left _ rest')
    | cons right rights =>
      rw [List.map_cons, List.map_cons, join_close, join_close, List.append_assoc,
        List.append_assoc] at h
      obtain ⟨rfl, hmore⟩ := hinj left List.mem_cons_self right (stops_more hclose _ _)
        (stops_more hclose _ _) h
      obtain ⟨rfl, rfl⟩ := more_append_inj hcomma hclose
        (fun other hother => hinj other (List.mem_cons_of_mem _ hother)) hmore
      exact ⟨rfl, rfl⟩

end Pieces

/-- A value is determined by its text and what follows it. -/
theorem text_append_inj (left right : Tree) (hrest : Stops rest) (hrest' : Stops rest')
    (h : left.text ++ rest = right.text ++ rest') : left = right ∧ rest = rest' := by
  induction left using induct generalizing right rest rest' with
  | null =>
    cases right with
    | null => exact ⟨rfl, List.append_cancel_left h⟩
    | bool value => cases value <;> exact absurd (lead_eq h) (by simp [lead])
    | _ => exact absurd (lead_eq h) (by simp [lead])
  | bool value =>
    cases right with
    | bool value' =>
      cases value <;> cases value' <;>
        first
        | exact ⟨rfl, List.append_cancel_left h⟩
        | exact absurd (lead_eq h) (by simp [lead])
    | _ => cases value <;> exact absurd (lead_eq h) (by simp [lead])
  | num value =>
    cases right with
    | num value' =>
      obtain ⟨rfl, rfl⟩ := numeral_append_inj hrest hrest' h
      exact ⟨rfl, rfl⟩
    | bool value => cases value <;> exact absurd (lead_eq h) (by simp [lead])
    | _ => exact absurd (lead_eq h) (by simp [lead])
  | str value =>
    cases right with
    | str value' =>
      obtain ⟨rfl, rfl⟩ := quote_append_inj h
      exact ⟨rfl, rfl⟩
    | bool value => cases value <;> exact absurd (lead_eq h) (by simp [lead])
    | _ => exact absurd (lead_eq h) (by simp [lead])
  | arr items ih =>
    cases right with
    | arr items' =>
      rw [text, text, itemTexts_eq, itemTexts_eq] at h
      obtain ⟨rfl, rfl⟩ := join_append_inj (by decide) (by decide)
        (fun item hitem other {_ _} => ih item hitem other) text_ne_bracket
        (List.cons.inj h).2
      exact ⟨rfl, rfl⟩
    | bool value => cases value <;> exact absurd (lead_eq h) (by simp [lead])
    | _ => exact absurd (lead_eq h) (by simp [lead])
  | obj members ih =>
    cases right with
    | obj members' =>
      rw [text, text, memberTexts_eq, memberTexts_eq] at h
      have hinj : ∀ member ∈ members, ∀ (other : Text × Tree) {rest rest' : Text}, Stops rest →
          Stops rest' → memberText member ++ rest = memberText other ++ rest' →
          member = other ∧ rest = rest' := by
        intro member hmember other rest rest' hrest hrest' heq
        unfold memberText at heq
        rw [List.append_assoc, List.append_assoc] at heq
        obtain ⟨hkey, hvalue⟩ := quote_append_inj heq
        obtain ⟨htree, rfl⟩ := ih member hmember other.2 hrest hrest' (List.cons.inj hvalue).2
        exact ⟨Prod.ext hkey htree, rfl⟩
      obtain ⟨rfl, rfl⟩ := join_append_inj (by decide) (by decide) hinj
        (fun member rest rest' heq => absurd (List.cons.inj heq).1 (by decide))
        (List.cons.inj h).2
      exact ⟨rfl, rfl⟩
    | bool value => cases value <;> exact absurd (lead_eq h) (by simp [lead])
    | _ => exact absurd (lead_eq h) (by simp [lead])

/-- The text determines the tree. -/
theorem text_injective : Function.Injective text := by
  intro left right h
  have happend : left.text ++ [] = right.text ++ [] := by rw [h]
  exact (text_append_inj left right stops_nil stops_nil happend).1

end Tree

end Utf16
