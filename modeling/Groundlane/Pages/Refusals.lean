import Groundlane.Pages.Following
import Groundlane.Text.Width

/-!
# When a page of content is refused

The pages from one offset grow with their count, but for the last one: it says `null` where the
page before it has a number of up to six digits (`outputChars_lt`, `outputChars_last`). The search
reaches the last page only over the page with a character less, and the first test is of the page
without content. So a call is refused only when no page fits, and the rest of the content is
returned when it fits, unless the last page is the shorter one and has exactly the length that is
left (`pagination_refuses_rightly_iff`).
-/

namespace Groundlane

open Paging Sequential Utf16

theorem width_bool (value : Bool) :
    width (Value.bool value).stringify = if value then 4 else 5 := by
  cases value <;> rfl

namespace ContentPageRequest

variable (request : ContentPageRequest)

/-- The count of the remaining characters. -/
def remaining : Nat := request.characters.length - request.offset

theorem remaining_of_length {length offset : Nat} (hlength : request.characters.length = length)
    (hoffset : request.offset = offset) : request.remaining = length - offset := by
  unfold remaining
  rw [hlength, hoffset]

/-- The characters of the page with `count` characters. -/
def taken (count : Nat) : List Text := (request.characters.drop request.offset).take count

/-- The serialized next offset of the page with `count` characters. -/
def nextChars (count : Nat) : Nat :=
  if request.offset + count < request.characters.length then
    width (Value.nat (request.offset + count)).stringify
  else 4

/-- The serialized flag of the page with `count` characters. -/
def flagChars (count : Nat) : Nat :=
  if request.source.truncated || request.offset > 0 ||
    request.offset + count < request.characters.length then 4 else 5

/-- What the length of the page with `count` characters depends on the count by. -/
def ownChars (count : Nat) : Nat :=
  quotedWidth (request.taken count) + request.nextChars count + request.flagChars count

/-- Two pages differ in length by what depends on the count. -/
theorem outputChars_exchange (count other : Nat) :
    PaginatedContentResult.outputChars (request.makePage count) + request.ownChars other =
      PaginatedContentResult.outputChars (request.makePage other) + request.ownChars count := by
  have hnext : ∀ count, width ((if request.offset + count < request.characters.length then
      some (request.offset + count) else none).elim Value.null Value.nat).stringify =
      request.nextChars count := by
    intro count
    unfold nextChars
    split <;> rfl
  have hcontent : ∀ count,
      width (Value.str ((request.characters.drop request.offset).take count).flatten).stringify =
        2 + quotedWidth (request.taken count) := by
    intro count
    show width (quote _) = _
    rw [width_quote]
    exact congrArg _ (congrArg _ (codePoints_slice _ _ _))
  show width (PaginatedContentResult.toValue (request.makePage count)).stringify + _ =
    width (PaginatedContentResult.toValue (request.makePage other)).stringify + _
  unfold PaginatedContentResult.toValue PaginatedContent.toValue ContentProviderResult.members
  rw [Value.width_obj (by simp), Value.width_obj (by simp)]
  simp only [makePage, List.map_cons, List.map_nil, List.sum_cons, List.sum_nil, Value.memberWidth,
    Value.width_arr_singleton]
  rw [Value.width_obj (by simp), Value.width_obj (by simp)]
  simp only [List.map_cons, List.map_nil, List.sum_cons, List.sum_nil, Value.memberWidth,
    List.map_append, List.sum_append, width_bool, hnext, hcontent]
  unfold ownChars flagChars
  omega

/-! ## How the length grows -/

theorem quotedWidth_append (left right : List Text) :
    quotedWidth (left ++ right) = quotedWidth left + quotedWidth right := by
  unfold quotedWidth
  rw [List.map_append, List.sum_append]

/-- One character more. -/
theorem quotedWidth_taken_succ {count : Nat}
    (h : request.offset + count < request.characters.length) :
    quotedWidth (request.taken (count + 1)) =
      quotedWidth (request.taken count) +
        width (quotePoint request.characters[request.offset + count]) := by
  have hdrop : count < (request.characters.drop request.offset).length := by
    rw [List.length_drop]
    omega
  unfold taken
  rw [List.take_succ_eq_append_getElem hdrop, quotedWidth_append, List.getElem_drop]
  rfl

theorem width_quotePoint_character_pos {index : Nat} (h : index < request.characters.length) :
    0 < width (quotePoint request.characters[index]) :=
  width_quotePoint_pos (isPoint_of_mem _ _ (List.getElem_mem h))

/-- A page before the last one is longer than the page with a character less. -/
theorem outputChars_lt_succ {count : Nat}
    (h : request.offset + (count + 1) < request.characters.length) :
    PaginatedContentResult.outputChars (request.makePage count) <
      PaginatedContentResult.outputChars (request.makePage (count + 1)) := by
  have hexchange := request.outputChars_exchange count (count + 1)
  have hcharacter := request.width_quotePoint_character_pos
    (show request.offset + count < request.characters.length by omega)
  have htaken := request.quotedWidth_taken_succ
    (show request.offset + count < request.characters.length by omega)
  have hnext : request.nextChars count ≤ request.nextChars (count + 1) := by
    unfold nextChars
    rw [if_pos h, if_pos (by omega)]
    exact width_nat_mono (by omega)
  have hflag : request.flagChars count = request.flagChars (count + 1) := by
    unfold flagChars
    rw [if_pos (by simp; omega), if_pos (by simp; omega)]
  unfold ownChars at hexchange
  omega

/-- So the pages before the last one grow with the count. -/
theorem outputChars_lt {count other : Nat} (hless : count < other)
    (h : request.offset + other < request.characters.length) :
    PaginatedContentResult.outputChars (request.makePage count) <
      PaginatedContentResult.outputChars (request.makePage other) := by
  induction other, hless using Nat.le_induction with
  | base => exact request.outputChars_lt_succ h
  | succ other hless ih => exact (ih (by omega)).trans (request.outputChars_lt_succ h)

/-- The last page says `null` where the page with a character less has a number, and may say that
nothing is missing. -/
theorem outputChars_last (h : request.offset < request.characters.length) :
    PaginatedContentResult.outputChars (request.makePage request.remaining) +
        width (Value.nat (request.characters.length - 1)).stringify =
      PaginatedContentResult.outputChars (request.makePage (request.remaining - 1)) +
        width (quotePoint (request.characters[request.characters.length - 1])) +
        (if request.source.truncated ∨ 0 < request.offset then 4 else 5) := by
  have hexchange := request.outputChars_exchange request.remaining
    (request.remaining - 1)
  obtain ⟨before, hbefore⟩ : ∃ before, request.remaining = before + 1 :=
    ⟨request.remaining - 1, by unfold remaining; omega⟩
  have hend : request.offset + (before + 1) = request.characters.length := by
    unfold remaining at hbefore
    omega
  have hindex : request.characters.length - 1 = request.offset + before := by omega
  have htaken := request.quotedWidth_taken_succ
    (show request.offset + before < request.characters.length by omega)
  have hnext : request.nextChars before =
      width (Value.nat (request.offset + before)).stringify := if_pos (by omega)
  have hnull : request.nextChars (before + 1) = 4 := if_neg (by omega)
  have hflag : request.flagChars before = 4 := if_pos (by simp; omega)
  have hnone : request.flagChars (before + 1) =
      if request.source.truncated ∨ 0 < request.offset then 4 else 5 := by
    unfold flagChars
    rw [hend]
    simp
  simp only [hbefore, hindex, Nat.add_sub_cancel] at hexchange ⊢
  unfold ownChars at hexchange
  omega

variable {request}

/-! ## When the search misses the last page -/

variable (request) in
/-- The rest of the content makes up a page of exactly the length that is left for the output, and
the page with a character less, whose `nextContentOffset` has six digits where this one says
`null`, is longer. -/
structure ShrinksAtEnd (maxContentChars maxOutputChars : Int) : Prop where
  more : 1 ≤ request.remaining
  within : request.remaining ≤ maxContentChars
  digits : 100000 < request.characters.length
  flagged : request.source.truncated ∨ 0 < request.offset
  plain : ∃ point, request.characters.getLast? = some point ∧ width (quotePoint point) = 1
  length_eq : (PaginatedContentResult.outputChars (request.makePage request.remaining) : Int) =
    maxOutputChars

/-- These are the cases in which the last page fits and the page with a character less does not. -/
theorem shrinksAtEnd_iff {maxContentChars maxOutputChars : Int} (hmore : 1 ≤ request.remaining)
    (hwithin : request.remaining ≤ maxContentChars) (hoffset : request.offset ≤ 200000)
    (hmax : maxContentChars ≤ 200000) :
    request.ShrinksAtEnd maxContentChars maxOutputChars ↔
      fits maxOutputChars (request.makePage request.remaining) = true ∧
        ¬ fits maxOutputChars (request.makePage (request.remaining - 1)) = true := by
  have hlength : request.offset < request.characters.length := by
    unfold remaining at hmore
    omega
  have hsize := request.outputChars_last hlength
  have hsmall : request.characters.length - 1 < 10 ^ 6 := by
    unfold remaining at hwithin
    omega
  have hsix := (width_nat_le_iff (by decide)).2 hsmall
  have hfive : width (Value.nat (request.characters.length - 1)).stringify ≤ 5 ↔
      request.characters.length - 1 < 10 ^ 5 := width_nat_le_iff (by decide)
  have hpoint := request.width_quotePoint_character_pos
    (show request.characters.length - 1 < request.characters.length by omega)
  have hgetLast : request.characters.getLast? =
      some request.characters[request.characters.length - 1] := by
    rw [List.getLast?_eq_getElem?]
    exact List.getElem?_eq_getElem (by omega)
  simp only [fits, decide_eq_true_eq]
  constructor
  · intro h
    obtain ⟨_, hlast, _⟩ := h.plain
    obtain rfl := Option.some.inj (hgetLast.symm.trans hlast)
    have hdigits := h.digits
    have hexact := h.length_eq
    rw [if_pos h.flagged] at hsize
    omega
  · rintro ⟨_, _⟩
    by_cases hflagged : request.source.truncated = true ∨ 0 < request.offset
    · rw [if_pos hflagged] at hsize
      exact ⟨hmore, hwithin, by omega, hflagged, ⟨_, hgetLast, by omega⟩, by omega⟩
    · rw [if_neg hflagged] at hsize
      omega

/-! ## What is refused -/

variable (request) in
/-- The count of the page that is returned when the search has found `low`. -/
def cutCount (low : Nat) : Nat :=
  if request.offset + low < request.characters.length then lineCount (request.taken low) else low

theorem cutCount_le (low : Nat) : request.cutCount low ≤ low := by
  unfold cutCount
  split
  · refine (lineCount_le _).trans ?_
    unfold taken
    rw [List.length_take]
    exact Nat.min_le_left _ _
  · exact le_refl low

variable {maxContentChars maxOutputChars : Int}

/-- Shorter pages before the last one fit. -/
theorem fits_of_le {count other : Nat} (hle : count ≤ other)
    (hbefore : request.offset + other < request.characters.length)
    (h : fits maxOutputChars (request.makePage other) = true) :
    fits maxOutputChars (request.makePage count) = true := by
  obtain rfl | hless := Nat.eq_or_lt_of_le hle
  · exact h
  · have hlength := request.outputChars_lt hless hbefore
    simp only [fits, decide_eq_true_eq] at h ⊢
    omega

theorem searchCount_le (maxContentChars maxOutputChars : Int) :
    request.searchCount maxContentChars maxOutputChars ≤
    min maxContentChars.toNat request.remaining :=
  lastFitting_le _ (Nat.zero_le _)

/-- Nothing is refused when the page without content fits and the search finds a page. -/
theorem page_eq_ok (hempty : fits maxOutputChars (request.makePage 0) = true)
    (hlow : request.offset < request.characters.length →
      0 < request.searchCount maxContentChars maxOutputChars) :
    request.page maxContentChars maxOutputChars =
      .ok (request.makePage
        (request.cutCount (request.searchCount maxContentChars maxOutputChars))) := by
  have hfound : fits maxOutputChars
      (request.makePage (request.searchCount maxContentChars maxOutputChars)) = true :=
    @lastFitting_fits (fun count => fits maxOutputChars (request.makePage count)) _ _
      (Nat.zero_le _) hempty
  have hcut : fits maxOutputChars (request.makePage
      (request.cutCount (request.searchCount maxContentChars maxOutputChars))) = true := by
    by_cases hbefore : request.offset + request.searchCount maxContentChars maxOutputChars <
        request.characters.length
    · exact fits_of_le (request.cutCount_le _) hbefore hfound
    · unfold cutCount
      rw [if_neg hbefore]
      exact hfound
  unfold ContentPageRequest.page
  simp only [check_bind_eq_ok, throwIf_eq_ok, not_not]
  refine ⟨hempty, fun hnone => ?_, hcut, rfl⟩
  have hpos := hlow hnone.2
  omega

/-- What is known when the last page is returned. -/
theorem of_page_last (hmore : 1 ≤ request.remaining)
    (h : request.page maxContentChars maxOutputChars =
      .ok (request.makePage request.remaining)) :
    fits maxOutputChars (request.makePage (request.remaining - 1)) = true := by
  unfold ContentPageRequest.page at h
  simp only [check_bind_eq_ok, throwIf_eq_ok, not_not] at h
  obtain ⟨hempty, -, -, h⟩ := h
  -- Only a page that reaches the end names no next offset, so the search has reached it.
  have hnext : (if request.offset +
      request.cutCount (request.searchCount maxContentChars maxOutputChars) <
        request.characters.length then some (request.offset +
      request.cutCount (request.searchCount maxContentChars maxOutputChars)) else none) =
      if request.offset + request.remaining < request.characters.length then
        some (request.offset + request.remaining) else none :=
    congrArg pageNext (Except.ok.inj h)
  have hend : ¬ request.offset + request.remaining < request.characters.length := by
    unfold remaining
    omega
  have hreached : ¬ request.offset +
      request.cutCount (request.searchCount maxContentChars maxOutputChars) <
        request.characters.length := by
    intro hbefore
    rw [if_neg hend, if_pos hbefore] at hnext
    cases hnext
  have hcut := request.cutCount_le (request.searchCount maxContentChars maxOutputChars)
  have hsearch := request.searchCount_le maxContentChars maxOutputChars
  have hhigh : min maxContentChars.toNat request.remaining = request.remaining := by
    unfold remaining at *
    omega
  have hfound : lastFitting (fun count => fits maxOutputChars (request.makePage count)) 0
      (min maxContentChars.toNat request.remaining) =
        min maxContentChars.toNat request.remaining := by
    show request.searchCount maxContentChars maxOutputChars = _
    unfold remaining at *
    omega
  obtain ⟨-, hbefore⟩ := fits_of_lastFitting_eq (by omega) hfound
  rw [hhigh] at hbefore
  by_cases hone : request.remaining = 1
  · rw [hone]
    exact hempty
  · exact hbefore (by omega)

/-- A call is refused rightly when no page fits, and the last page is returned when it fits. -/
structure RefusesRightly (request : ContentPageRequest) (maxContentChars maxOutputChars : Int)
    (answer : Except Fault PaginatedContentResult) : Prop where
  refused : ∀ message, answer = .error (contentLimitError message) →
    ∀ count : Nat, 0 < count ∨ request.remaining = 0 → count ≤ request.remaining →
      count ≤ maxContentChars → ¬ fits maxOutputChars (request.makePage count) = true
  last : request.remaining ≤ maxContentChars →
    fits maxOutputChars (request.makePage request.remaining) = true →
      answer = .ok (request.makePage request.remaining)

theorem refusesRightly_iff (hinside : request.offset ≤ request.characters.length)
    (hoffset : request.offset ≤ 200000) (hmax : maxContentChars ≤ 200000) :
    RefusesRightly request maxContentChars maxOutputChars
        (request.page maxContentChars maxOutputChars) ↔
      ¬ request.ShrinksAtEnd maxContentChars maxOutputChars := by
  constructor
  · intro h hshrinks
    obtain ⟨hfits, hbefore⟩ :=
      (shrinksAtEnd_iff hshrinks.more hshrinks.within hoffset hmax).1 hshrinks
    exact hbefore (of_page_last hshrinks.more (h.last hshrinks.within hfits))
  · intro hnot
    have hdown : ∀ count : Nat, count ≤ request.remaining → count ≤ maxContentChars →
        fits maxOutputChars (request.makePage count) = true → ∀ smaller ≤ count,
          fits maxOutputChars (request.makePage smaller) = true := by
      intro count hcount hlimit hfits smaller hsmaller
      by_cases hlast : request.offset + count < request.characters.length
      · exact fits_of_le hsmaller hlast hfits
      · -- The page with a character less fits as well.
        obtain rfl | hless := Nat.eq_or_lt_of_le hsmaller
        · exact hfits
        · have hend : count = request.remaining := by
            unfold remaining at *
            omega
          subst hend
          have hbefore : fits maxOutputChars (request.makePage (request.remaining - 1)) = true := by
            by_contra hbefore
            exact hnot ((shrinksAtEnd_iff (by omega) hlimit hoffset hmax).2 ⟨hfits, hbefore⟩)
          refine fits_of_le (by omega) ?_ hbefore
          unfold remaining at *
          omega
    have hsearch : ∀ count : Nat, count ≤ request.remaining → count ≤ maxContentChars →
        fits maxOutputChars (request.makePage count) = true →
          count ≤ request.searchCount maxContentChars maxOutputChars := by
      intro count hcount hlimit hfits
      refine le_lastFitting_of_fits ?_ (Nat.zero_le _) fun smaller _ hsmaller =>
        hdown count hcount hlimit hfits smaller hsmaller
      unfold remaining at hcount
      omega
    constructor
    · intro message hrefused count hcount hrest hlimit hfits
      have hpos : request.offset < request.characters.length →
          0 < request.searchCount maxContentChars maxOutputChars := by
        intro hbefore
        have hfound := hsearch count hrest hlimit hfits
        unfold remaining at hcount
        omega
      rw [page_eq_ok (hdown count hrest hlimit hfits 0 (Nat.zero_le _)) hpos] at hrefused
      exact absurd hrefused nofun
    · intro hlimit hfits
      have hfound := hsearch request.remaining (le_refl _) hlimit hfits
      have hle := request.searchCount_le maxContentChars maxOutputChars
      have hall : request.searchCount maxContentChars maxOutputChars = request.remaining := by
        omega
      have hcut : request.cutCount request.remaining = request.remaining := by
        unfold cutCount
        rw [if_neg]
        unfold remaining
        omega
      have hpos : request.offset < request.characters.length →
          0 < request.searchCount maxContentChars maxOutputChars := by
        intro hbefore
        rw [hall]
        unfold remaining
        omega
      rw [page_eq_ok (hdown request.remaining (le_refl _) hlimit hfits 0 (Nat.zero_le _)) hpos,
        hall, hcut]

end ContentPageRequest

/-! ## The call -/

/-- What the pages of a call have in common. -/
def contentPageRequest (digest : Text → Text) (result : ContentResult)
    (source : ContentProviderResult) (options : ContentPageOptions) : ContentPageRequest where
  result := result
  source := source
  offset := options.offset.toNat
  contentHash := digest source.fingerprint

/-- The options of a call that is not refused as invalid. -/
structure ValidContentOptions (digest : Text → Text) (source : ContentProviderResult)
    (options : ContentPageOptions) : Prop where
  offset_nonneg : 0 ≤ options.offset
  offset_le : options.offset ≤ 200000
  offset_inside : options.offset ≤ (codePoints source.content).length
  maxContentChars_pos : 1 ≤ options.maxContentChars
  maxContentChars_le : options.maxContentChars ≤ 200000
  maxOutputChars_pos : 1 ≤ options.maxOutputChars
  maxOutputChars_safe : isSafeInteger options.maxOutputChars = true
  hash : ∀ hash ∈ options.expectedContentHash,
    isContentHash hash = true ∧ hash = digest source.fingerprint
  fenced : 0 < options.offset → options.expectedContentHash ≠ none

theorem paginateContentResult_eq {digest : Text → Text} {result : ContentResult}
    {source : ContentProviderResult} {options : ContentPageOptions}
    (hsource : result.contents = [source]) (h : ValidContentOptions digest source options) :
    paginateContentResult digest result options =
      (contentPageRequest digest result source options).page options.maxContentChars
        options.maxOutputChars := by
  have hsafe : ∀ value : Int, 0 ≤ value → value ≤ 200000 → isSafeInteger value = true := by
    intro value hlower hupper
    unfold isSafeInteger
    simp only [Bool.and_eq_true, decide_eq_true_eq]
    omega
  unfold paginateContentResult
  rw [hsource]
  dsimp only
  rw [throwIf_eq_ok.2, throwIf_eq_ok.2, throwIf_eq_ok.2]
  · rfl
  · rw [Bool.not_eq_true, Option.any_eq_false]
    intro hash hhash
    simpa using (h.hash hash hhash).2
  · have hinside := h.offset_inside
    show ¬ options.offset > ((codePoints source.content).length : Int)
    omega
  · have hoffset := hsafe options.offset h.offset_nonneg h.offset_le
    have hchars := hsafe options.maxContentChars (by have := h.maxContentChars_pos; omega)
      h.maxContentChars_le
    have hhashes : (options.expectedContentHash.any fun hash => ¬ isContentHash hash) = false := by
      rw [Option.any_eq_false]
      intro hash hhash
      simp [(h.hash hash hhash).1]
    obtain ⟨_, _, -, _, _, _, hsafeOut, -, hfenced⟩ := h
    rw [hoffset, hchars, hsafeOut, hhashes]
    rintro (hfalse | hfalse | hfalse | hfalse | hfalse | hfalse | hfalse | hfalse | hfalse | hfalse)
    · exact hfalse rfl
    · omega
    · omega
    · exact hfalse rfl
    · omega
    · omega
    · exact hfalse rfl
    · omega
    · exact Bool.false_ne_true hfalse
    · exact hfenced hfalse.1 hfalse.2

/-- The claim about a call: it is refused for its output limit only when no page from the offset on
fits the limits, and the rest of the content is returned when it fits. It fails exactly when the
last page is shorter than the page with a character less and has exactly the length that is left
for it. -/
theorem pagination_refuses_rightly_iff {digest : Text → Text} {result : ContentResult}
    {source : ContentProviderResult} {options : ContentPageOptions}
    (hsource : result.contents = [source]) (h : ValidContentOptions digest source options) :
    (contentPageRequest digest result source options).RefusesRightly options.maxContentChars
        options.maxOutputChars (paginateContentResult digest result options) ↔
      ¬ (contentPageRequest digest result source options).ShrinksAtEnd options.maxContentChars
        options.maxOutputChars := by
  have hoffset : (contentPageRequest digest result source options).offset ≤ 200000 :=
    Int.toNat_le.2 h.offset_le
  have hinside : (contentPageRequest digest result source options).offset ≤
      (contentPageRequest digest result source options).characters.length :=
    Int.toNat_le.2 h.offset_inside
  rw [paginateContentResult_eq hsource h]
  exact ContentPageRequest.refusesRightly_iff hinside hoffset h.maxContentChars_le

/-- A first page of the sample content. -/
theorem pagination_refuses_rightly_sample :
    (contentPageRequest (fun _ => sampleHash) (sampleResult [sampleSource]) sampleSource
        ⟨0, 3, 1000, none⟩).RefusesRightly 3 1000
      (paginateContentResult (fun _ => sampleHash) (sampleResult [sampleSource])
        ⟨0, 3, 1000, none⟩) :=
  (pagination_refuses_rightly_iff rfl
    { offset_nonneg := by decide
      offset_le := by decide
      offset_inside := by decide
      maxContentChars_pos := by decide
      maxContentChars_le := by decide
      maxOutputChars_pos := by decide
      maxOutputChars_safe := by decide
      hash := fun _ h => absurd h (Option.not_mem_none _)
      fenced := fun h => absurd h (by decide) }).2 fun h => absurd h.flagged (by decide)

theorem codePoints_replicate (count : Nat) :
    codePoints (List.replicate count 0x61) = List.replicate count [0x61] := by
  induction count with
  | zero => rfl
  | succ count ih =>
    cases count with
    | zero => rfl
    | succ count =>
      show codePoints (0x61 :: 0x61 :: List.replicate count 0x61) = _
      rw [codePoints, if_neg (by decide)]
      exact congrArg _ ih

/-- The sample source with 100001 letters. -/
def longSource : ContentProviderResult :=
  { sampleSource with content := List.replicate 100001 0x61 }

/-- The page with the last letter. -/
def longPage : PaginatedContentResult :=
  sampleResult [{ sampleSource with
    content := [0x61]
    contentOffset := 100000
    totalContentChars := 100001
    nextContentOffset := none
    contentHash := sampleHash
    sourceTruncated := false
    truncated := true }]

def longOptions (maxOutputChars : Int) : ContentPageOptions :=
  ⟨100000, 1, maxOutputChars, some sampleHash⟩

/-- The request for the last letter. -/
def longRequest : ContentPageRequest :=
  contentPageRequest (fun _ => sampleHash) (sampleResult [longSource]) longSource (longOptions 444)

theorem longRequest_characters : longRequest.characters = List.replicate 100001 [0x61] := by
  show codePoints (List.replicate 100001 0x61) = _
  exact codePoints_replicate 100001

theorem longRequest_length : longRequest.characters.length = 100001 := by
  rw [longRequest_characters, List.length_replicate]

theorem longRequest_offset : longRequest.offset = 100000 := by decide

theorem longRequest_remaining : longRequest.remaining = 1 :=
  longRequest.remaining_of_length longRequest_length longRequest_offset

theorem longRequest_makePage : longRequest.makePage 1 = longPage := by
  unfold ContentPageRequest.makePage
  rw [longRequest_length, longRequest_characters, longRequest_offset, List.drop_replicate]
  rfl

theorem longOptions_valid :
    ValidContentOptions (fun _ => sampleHash) longSource (longOptions 444) where
  offset_nonneg := by decide
  offset_le := by decide
  offset_inside := by
    show (100000 : Int) ≤ (longRequest.characters.length : Int)
    rw [longRequest_length]
    decide
  maxContentChars_pos := by decide
  maxContentChars_le := by decide
  maxOutputChars_pos := by decide
  maxOutputChars_safe := by decide
  hash := fun hash hhash => by
    obtain rfl := Option.some.inj hhash
    exact ⟨by decide +kernel, rfl⟩
  fenced := fun _ => nofun

theorem longRequest_shrinks : longRequest.ShrinksAtEnd 1 444 where
  more := longRequest_remaining.ge
  within := by
    rw [longRequest_remaining]
    decide
  digits := by
    rw [longRequest_length]
    decide
  flagged := .inr (by decide)
  plain := by
    refine ⟨[0x61], ?_, by decide⟩
    rw [longRequest_characters, List.getLast?_replicate]
    rfl
  length_eq := by
    rw [longRequest_remaining, longRequest_makePage]
    decide +kernel

/-- The last letter of 100001 fits, but the page without content, which is one character longer,
is refused first. -/
theorem last_page_refused :
    ¬ longRequest.RefusesRightly 1 444
      (paginateContentResult (fun _ => sampleHash) (sampleResult [longSource])
        (longOptions 444)) := by
  have hpage : paginateContentResult (fun _ => sampleHash) (sampleResult [longSource])
      (longOptions 444) = longRequest.page 1 444 :=
    paginateContentResult_eq rfl longOptions_valid
  rw [hpage]
  intro h
  exact (ContentPageRequest.refusesRightly_iff (by rw [longRequest_length]; decide) (by decide)
    (by decide)).1 h longRequest_shrinks

end Groundlane
