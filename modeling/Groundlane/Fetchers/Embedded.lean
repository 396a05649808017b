import Groundlane.Net.Address
import Groundlane.Fetchers.Http

/-!
# Embedded IPv4 addresses

Whether `isPublicAddress` sees through the IPv6 addresses that embed an IPv4 address. The platform
compares addresses as numbers, whatever their text, and mapped addresses with the IPv4 subnets too.
A mapped, NAT64, 6to4 or Teredo address is accepted only if the embedded address is. The subnets
have no rule for the compatible addresses behind `::1`, which are accepted whatever they embed
(`isPublicAddress_embeds_iff`).
-/

namespace Groundlane.Fetchers

open Net Sequential

/-! ## What the platform compares -/

/-- The subnet contains the IPv4 address. -/
def Subnet.coversIPv4 (subnet : Subnet) (n : Nat) : Bool :=
  subnet.type == "ipv4" &&
    (readIPv4 subnet.address).any fun start => inSubnet 32 subnet.prefixLength start n

/-- The subnet contains the IPv6 address. -/
def Subnet.coversIPv6 (subnet : Subnet) (n : Nat) : Bool :=
  subnet.type == "ipv6" &&
    (readIPv6 subnet.address).any fun start => inSubnet 128 subnet.prefixLength start n

/-- The IPv4 address that a mapped address embeds is in a subnet. -/
def Subnet.coversMapped (subnet : Subnet) (n : Nat) : Bool :=
  n / 2 ^ 32 == 0xffff && subnet.coversIPv4 (n % 2 ^ 32)

/-- A rule blocks the IPv4 address. -/
def ruledIPv4 (n : Nat) : Bool := blocked.any fun subnet => subnet.coversIPv4 n

/-- A rule blocks the IPv6 address. -/
def ruledIPv6 (n : Nat) : Bool :=
  blocked.any fun subnet => subnet.coversIPv6 n || subnet.coversMapped n

/-- `isIP` tells the texts of both families, and `check` compares numbers, those of mapped
addresses with the IPv4 subnets too. -/
structure Platform.Numeric (platform : Platform) : Prop where
  isIP_eq : ∀ text, platform.isIP text =
    if (readIPv4 text).isSome then 4 else if (readIPv6 text).isSome then 6 else 0
  check_ipv4 : ∀ text n, readIPv4 text = some n →
    platform.check blocked text "ipv4" = ruledIPv4 n
  check_ipv6 : ∀ text n, readIPv6 text = some n →
    platform.check blocked text "ipv6" = ruledIPv6 n

/-- The texts stand for the same address. -/
def SameAddress (text text' : String) : Prop :=
  (∃ n, readIPv4 text = some n ∧ readIPv4 text' = some n) ∨
    ∃ n, readIPv6 text = some n ∧ readIPv6 text' = some n

variable {platform : Platform}

/-- The addresses of a destination are public. -/
theorem isPublic_of_resolvePublicUrl {allowedPorts : List Nat} {validation : Platform.Validation}
    {cache cache' : Platform.Cache} {value : String} {destination : Platform.SafeDestination}
    (h : platform.resolvePublicUrl allowedPorts validation cache value =
      .ok (destination, cache')) :
    ∀ resolved ∈ destination.addresses, platform.isPublicAddress resolved.address = true := by
  unfold Platform.resolvePublicUrl at h
  obtain ⟨-, h⟩ := check_bind_eq_ok.1 h
  obtain ⟨_, -, h⟩ := bind_eq_ok.1 h
  obtain ⟨-, h⟩ := check_bind_eq_ok.1 h
  obtain ⟨_, -, h⟩ := bind_eq_ok.1 h
  rw [check_bind_eq_ok, throwIf_eq_ok, not_or] at h
  obtain ⟨⟨-, hpublic⟩, h⟩ := h
  cases h
  intro resolved hresolved
  by_contra hprivate
  exact hpublic (List.any_eq_true.2 ⟨resolved, hresolved, by simpa using hprivate⟩)

variable {n : Nat}

namespace Platform.Numeric

variable {text : String}

theorem isPublic_ipv4 (numeric : platform.Numeric) (h : readIPv4 text = some n) :
    platform.isPublicAddress text = !ruledIPv4 n := by
  have hfamily : platform.isIP text = 4 := by
    rw [numeric.isIP_eq, h]
    rfl
  unfold isPublicAddress
  rw [hfamily]
  show (true && !platform.check blocked text "ipv4") = _
  rw [numeric.check_ipv4 text n h, Bool.true_and]

theorem isPublic_ipv6 (numeric : platform.Numeric) (h : readIPv6 text = some n) :
    platform.isPublicAddress text = !ruledIPv6 n := by
  have hother : (readIPv4 text).isSome = false := by
    by_contra hsome
    rw [Bool.not_eq_false] at hsome
    rw [readIPv6_of_readIPv4 hsome] at h
    cases h
  have hfamily : platform.isIP text = 6 := by
    rw [numeric.isIP_eq, hother, h]
    rfl
  unfold isPublicAddress
  rw [hfamily]
  show (true && !platform.check blocked text "ipv6") = _
  rw [numeric.check_ipv6 text n h, Bool.true_and]

/-- The text of an address does not matter. -/
theorem isPublic_congr (numeric : platform.Numeric) {text text' : String}
    (h : SameAddress text text') :
    platform.isPublicAddress text = platform.isPublicAddress text' := by
  rcases h with ⟨n, h, h'⟩ | ⟨n, h, h'⟩
  · rw [numeric.isPublic_ipv4 h, numeric.isPublic_ipv4 h']
  · rw [numeric.isPublic_ipv6 h, numeric.isPublic_ipv6 h']

end Platform.Numeric

/-! ## The rules as numbers -/

/-- Where an IPv6 subnet starts, and the length of its prefix. -/
def Subnet.rangeIPv6 (subnet : Subnet) : Option (Nat × Nat) :=
  if subnet.type == "ipv6" then
    (readIPv6 subnet.address).map fun start => (start, subnet.prefixLength)
  else none

theorem Subnet.coversIPv6_eq (subnet : Subnet) (n : Nat) :
    subnet.coversIPv6 n = subnet.rangeIPv6.any fun range => inSubnet 128 range.2 range.1 n := by
  unfold coversIPv6 rangeIPv6
  cases subnet.type == "ipv6" with
  | false => rfl
  | true => cases readIPv6 subnet.address <;> rfl

/-- The numbers of the IPv6 subnets. -/
theorem blocked_rangeIPv6 :
    blocked.filterMap Subnet.rangeIPv6 =
      [(0, 128), (1, 128), (0x64ff9b * 2 ^ 96, 96), (0x64ff9b0001 * 2 ^ 80, 48),
        (0x100 * 2 ^ 112, 64), (0x2001 * 2 ^ 112, 32), (0x20010db8 * 2 ^ 96, 32),
        (0x2002 * 2 ^ 112, 16), (0xfc00 * 2 ^ 112, 7), (0xfe80 * 2 ^ 112, 10),
        (0xff00 * 2 ^ 112, 8)] := by
  decide +kernel

/-- The IPv6 addresses with a rule: those of the IPv6 subnets, and the mapped ones whose IPv4
address has one. -/
theorem ruledIPv6_iff : ruledIPv6 n = true ↔
      (∃ range ∈ blocked.filterMap Subnet.rangeIPv6, inSubnet 128 range.2 range.1 n = true) ∨
        n / 2 ^ 32 = 0xffff ∧ ruledIPv4 (n % 2 ^ 32) = true := by
  unfold ruledIPv6 ruledIPv4 Subnet.coversMapped
  simp only [List.any_eq_true, Bool.or_eq_true, Bool.and_eq_true, beq_iff_eq,
    Subnet.coversIPv6_eq, Option.any_eq_true, List.mem_filterMap]
  constructor
  · rintro ⟨subnet, hsubnet, ⟨range, hrange, hin⟩ | ⟨hmapped, hcovers⟩⟩
    · exact .inl ⟨range, ⟨subnet, hsubnet, hrange⟩, hin⟩
    · exact .inr ⟨hmapped, subnet, hsubnet, hcovers⟩
  · rintro (⟨range, ⟨subnet, hsubnet, hrange⟩, hin⟩ | ⟨hmapped, subnet, hsubnet, hcovers⟩)
    · exact ⟨subnet, hsubnet, .inl ⟨range, hrange, hin⟩⟩
    · exact ⟨subnet, hsubnet, .inr ⟨hmapped, hcovers⟩⟩

/-- The bits that the IPv6 subnets compare. -/
theorem ruledIPv6_eq_true : ruledIPv6 n = true ↔
      (n = 0 ∨ n = 1 ∨ n / 2 ^ 32 = 0x64ff9b * 2 ^ 64 ∨ n / 2 ^ 80 = 0x64ff9b0001 ∨
        n / 2 ^ 64 = 0x100 * 2 ^ 48 ∨ n / 2 ^ 96 = 0x20010000 ∨ n / 2 ^ 96 = 0x20010db8 ∨
        n / 2 ^ 112 = 0x2002 ∨ n / 2 ^ 121 = 0x7e ∨ n / 2 ^ 118 = 0x3fa ∨ n / 2 ^ 120 = 0xff) ∨
        n / 2 ^ 32 = 0xffff ∧ ruledIPv4 (n % 2 ^ 32) = true := by
  rw [ruledIPv6_iff, blocked_rangeIPv6]
  simp only [List.exists_mem_cons_iff, inSubnet, beq_iff_eq, List.not_mem_nil, false_and,
    exists_false, or_false, Nat.reduceSub, Nat.reducePow, Nat.reduceMul, Nat.reduceDiv,
    Nat.div_one]

/-! ## Embedded addresses -/

/-- A rule for a scheme that embeds IPv4 addresses blocks all of its addresses, or those whose IPv4
address has a rule, except for the compatible addresses. -/
theorem ruledIPv6_of_embeds {n embedded : Nat} (h : Embeds n embedded)
    (hrule : ruledIPv4 embedded = true) (hother : ¬ (1 < n ∧ n < 2 ^ 32)) :
    ruledIPv6 n = true := by
  rw [ruledIPv6_eq_true]
  cases h with
  | mapped h => exact .inr ⟨h, hrule⟩
  | compatible h => omega
  | nat64 h => omega
  | sixToFour h => omega
  | teredoServer h => omega
  | teredoClient h => omega

/-- Behind `::1` no rule blocks a compatible address. -/
theorem ruledIPv6_compatible (h : 1 < n ∧ n < 2 ^ 32) : ruledIPv6 n = false := by
  rw [Bool.eq_false_iff, Ne, ruledIPv6_eq_true]
  omega

/-- An accepted IPv6 address embeds accepted IPv4 addresses alone, if and only if it is no
compatible address behind `::1` with an IPv4 address that has a rule. The addresses of a
destination are accepted in every text. -/
theorem isPublicAddress_embeds_iff (numeric : platform.Numeric) :
    (∀ text n, readIPv6 text = some n →
      ((∀ embedded, Embeds n embedded → platform.isPublicAddress text = true →
          ∀ dotted, readIPv4 dotted = some embedded → platform.isPublicAddress dotted = true) ↔
        ¬ (1 < n ∧ n < 2 ^ 32 ∧ ruledIPv4 n = true))) ∧
      ∀ allowedPorts validation cache value destination cache',
        platform.resolvePublicUrl allowedPorts validation cache value =
            .ok (destination, cache') →
          ∀ resolved ∈ destination.addresses, platform.isPublicAddress resolved.address = true ∧
            ∀ text, SameAddress resolved.address text → platform.isPublicAddress text = true := by
  refine ⟨fun text n hread => ⟨?_, ?_⟩, ?_⟩
  · rintro hsees ⟨hlow, hhigh, hrule⟩
    have hpublic : platform.isPublicAddress text = true := by
      rw [numeric.isPublic_ipv6 hread, ruledIPv6_compatible ⟨hlow, hhigh⟩]
      rfl
    have hembeds : Embeds n n := by
      have := Embeds.compatible (n := n) (by omega)
      rwa [Nat.mod_eq_of_lt hhigh] at this
    have hdotted := readIPv4_writeIPv4 hhigh
    have hseen := hsees n hembeds hpublic _ hdotted
    rw [numeric.isPublic_ipv4 hdotted, hrule] at hseen
    cases hseen
  · intro hother embedded hembeds hpublic dotted hdotted
    rw [numeric.isPublic_ipv4 hdotted, Bool.not_eq_true']
    rw [numeric.isPublic_ipv6 hread, Bool.not_eq_true'] at hpublic
    by_contra hrule
    rw [Bool.not_eq_false] at hrule
    by_cases hlow : 1 < n ∧ n < 2 ^ 32
    · cases hembeds with
      | compatible h =>
          rw [Nat.mod_eq_of_lt hlow.2] at hrule
          exact hother ⟨hlow.1, hlow.2, hrule⟩
      | mapped h => omega
      | nat64 h => omega
      | sixToFour h => omega
      | teredoServer h => omega
      | teredoClient h => omega
    · rw [ruledIPv6_of_embeds hembeds hrule hlow] at hpublic
      cases hpublic
  · intro allowedPorts validation cache value destination cache' h resolved hresolved
    have hpublic := isPublic_of_resolvePublicUrl h resolved hresolved
    exact ⟨hpublic, fun text hsame => numeric.isPublic_congr hsame ▸ hpublic⟩

/-! ## A numeric platform -/

def numericUrl : Url where
  protocol := "http:"
  username := ""
  password := ""
  hostname := "[2606::1]"
  port := none
  href := "http://[2606::1]/"

/-- A platform that parses one URL and compares addresses as numbers. -/
def numericPlatform : Platform where
  parse value := if value = numericUrl.href then some numericUrl else none
  resolve _ _ := none
  isIP text := if (readIPv4 text).isSome then 4 else if (readIPv6 text).isSome then 6 else 0
  check subnets text type :=
    if type = "ipv4" then
      (readIPv4 text).any fun n => subnets.any fun subnet => subnet.coversIPv4 n
    else
      (readIPv6 text).any fun n =>
        subnets.any fun subnet => subnet.coversIPv6 n || subnet.coversMapped n
  toLowerCase := id
  sends _ := true

theorem numeric_numericPlatform : numericPlatform.Numeric where
  isIP_eq _ := rfl
  check_ipv4 text n h := by
    show (readIPv4 text).any ruledIPv4 = ruledIPv4 n
    rw [h]
    rfl
  check_ipv6 text n h := by
    show (readIPv6 text).any ruledIPv6 = ruledIPv6 n
    rw [h]
    rfl

/-- The outside answers nothing. -/
def silent : Platform.Validation := ⟨none, fun _ => .ok [], none⟩

/-- The destination of the URL. -/
def numericDestination : Platform.SafeDestination := ⟨numericUrl, "2606::1", [⟨"2606::1", 6⟩]⟩

/-- The texts of this module, as numbers. -/
theorem sample_reads :
    readIPv6 "::127.0.0.1" = some 0x7f000001 ∧ readIPv4 "127.0.0.1" = some 0x7f000001 ∧
      readIPv6 "64:ff9b::7f00:1" = some (0x64ff9b * 2 ^ 96 + 0x7f000001) ∧
      readIPv6 "2606::1" = some (0x2606 * 2 ^ 112 + 1) ∧
      readIPv6 "2606:0:0::0.0.0.1" = some (0x2606 * 2 ^ 112 + 1) ∧
      ruledIPv4 0x7f000001 = true := by
  decide +kernel

/-- The loopback address as a compatible address makes the difference, as a NAT64 address it does
not, and a destination is public in another text. -/
theorem isPublicAddress_embeds_sample :
    (¬ ∀ embedded, Embeds 0x7f000001 embedded →
        numericPlatform.isPublicAddress "::127.0.0.1" = true →
          ∀ dotted, readIPv4 dotted = some embedded →
            numericPlatform.isPublicAddress dotted = true) ∧
      (∀ embedded, Embeds (0x64ff9b * 2 ^ 96 + 0x7f000001) embedded →
        numericPlatform.isPublicAddress "64:ff9b::7f00:1" = true →
          ∀ dotted, readIPv4 dotted = some embedded →
            numericPlatform.isPublicAddress dotted = true) ∧
      numericPlatform.isPublicAddress "2606:0:0::0.0.0.1" = true := by
  obtain ⟨hcompatible, -, hnat64, hshort, hlong, hrule⟩ := sample_reads
  obtain ⟨hembeds, hdestination⟩ := isPublicAddress_embeds_iff numeric_numericPlatform
  refine ⟨fun hsees => ?_, ?_, ?_⟩
  · exact (hembeds _ _ hcompatible).1 hsees ⟨by decide, by decide, hrule⟩
  · exact (hembeds _ _ hnat64).2 fun h => absurd h.2.1 (by decide)
  · have hresolved : numericPlatform.resolvePublicUrl defaultPorts silent [] numericUrl.href =
        .ok (numericDestination, [("2606::1", [⟨"2606::1", 6⟩])]) := rfl
    exact (hdestination _ _ _ _ _ _ hresolved ⟨"2606::1", 6⟩ (List.mem_singleton_self _)).2 _
      (.inr ⟨_, hshort, hlong⟩)

/-- The loopback address as a compatible address is accepted, as itself it is not. -/
theorem compatible_loopback_public :
    numericPlatform.Numeric ∧ readIPv6 "::127.0.0.1" = some 0x7f000001 ∧
      Embeds 0x7f000001 0x7f000001 ∧ readIPv4 "127.0.0.1" = some 0x7f000001 ∧
      numericPlatform.isPublicAddress "::127.0.0.1" = true ∧
      numericPlatform.isPublicAddress "127.0.0.1" = false := by
  obtain ⟨hcompatible, hdotted, -, -, -, hrule⟩ := sample_reads
  refine ⟨numeric_numericPlatform, hcompatible, .compatible (by decide), hdotted, ?_, ?_⟩
  · rw [numeric_numericPlatform.isPublic_ipv6 hcompatible, ruledIPv6_compatible (by decide)]
    rfl
  · rw [numeric_numericPlatform.isPublic_ipv4 hdotted, hrule]
    rfl

end Groundlane.Fetchers
