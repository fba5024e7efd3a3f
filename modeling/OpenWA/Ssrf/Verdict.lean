import OpenWA.Ssrf.Reading

/-!
This module contains the verdict on an address as a function of its value, and the addresses on which
`isBlockedAddress` gives the verdict that the declared prefixes ask for.
-/

namespace OpenWA.Ssrf

open Js

section Bounds

theorem hexDigitValue_lt {c : Char} (h : isHexDigit c = true) : hexDigitValue c < 16 := by
  have hle (a b : Char) : a ≤ b ↔ a.toNat ≤ b.toNat := UInt32.le_iff_toNat_le
  rw [isHexDigit_iff] at h
  simp only [hexDigitValue, isDigit_iff, hle]
  have : '0'.toNat = 48 := rfl
  have : 'a'.toNat = 97 := rfl
  have : 'A'.toNat = 65 := rfl
  split_ifs <;> omega

theorem hexValue_lt {p : Text} (h : ∀ c ∈ p, isHexDigit c = true) : hexValue p < 16 ^ p.length := by
  induction p using List.reverseRecOn with
  | nil => decide
  | append_singleton p c ih =>
    have hp := ih fun d hd => h d (by simp [hd])
    have hc := hexDigitValue_lt (h c (by simp))
    simp only [hexValue, List.foldl_append, List.foldl_cons, List.foldl_nil, List.length_append,
      List.length_singleton, Nat.pow_succ] at hp ⊢
    omega

theorem readGroup_lt {p : Text} {g : Nat} (h : readGroup p = some g) : g < 65536 := by
  have hchars := (char_of_readGroup h).2
  unfold readGroup at h
  split at h
  . next hcond =>
    simp only [Bool.and_eq_true, decide_eq_true_eq] at hcond
    simp only [Option.some.injEq] at h
    have hpow : 16 ^ p.length ≤ 16 ^ 4 := Nat.pow_le_pow_right (by decide) hcond.1.2
    have := hexValue_lt hchars
    omega
  . contradiction

theorem readIPv4_lt {t : Text} {v : Nat} (h : readIPv4 t = some v) : v < 4294967296 := by
  rcases readIPv4_cases h with ⟨_, _, _, _, a, b, c, d, _, ha, hb, hc, hd, hv⟩
  have := (all_of_readOctet ha).2.2.2.1
  have := (all_of_readOctet hb).2.2.2.1
  have := (all_of_readOctet hc).2.2.2.1
  have := (all_of_readOctet hd).2.2.2.1
  omega

theorem mapM_readGroup_lt {ps : List Text} {gs : List Nat} (h : ps.mapM readGroup = some gs) :
    ∀ g ∈ gs, g < 65536 := by
  rw [← mapM_some_iff] at h
  induction h with
  | nil => simp
  | cons hp _ ih =>
    simp only [List.forall_mem_cons]
    exact ⟨readGroup_lt hp, ih⟩

theorem readLast_lt {u : Text} {gs : List Nat} (h : readLast u = some gs) : ∀ g ∈ gs, g < 65536 := by
  unfold readLast at h
  split at h
  . simp only [Option.some.injEq] at h
    simp [← h]
  . rcases readFields_cases h with hgroups | ⟨init, d, gs₀, v, _, hinit, hd, rfl⟩
    . exact mapM_readGroup_lt hgroups
    . have := readIPv4_lt hd
      intro g hg
      simp only [List.mem_append, List.mem_cons, List.not_mem_nil, or_false] at hg
      rcases hg with hg | rfl | rfl
      . exact mapM_readGroup_lt hinit g hg
      . omega
      . omega

theorem readAddress_bounds {t : Text} {hs : List Nat} (h : readAddress t = some hs) :
    hs.length = 8 ∧ ∀ g ∈ hs, g < 65536 := by
  unfold readAddress at h
  split at h
  . simp only [Option.filter_eq_some_iff, decide_eq_true_eq] at h
    exact ⟨h.2, readLast_lt h.1⟩
  . split at h
    . next head tail hhead htail =>
      split at h
      . next hle =>
        simp only [Option.some.injEq] at h
        subst h
        constructor
        . simp
          omega
        . intro g hg
          simp only [List.mem_append, List.mem_replicate] at hg
          rcases hg with (hg | ⟨_, rfl⟩) | hg
          . unfold readGroups at hhead
            split at hhead
            . simp only [Option.some.injEq] at hhead
              simp [← hhead] at hg
            . exact mapM_readGroup_lt hhead g hg
          . decide
          . exact readLast_lt htail g hg
      . contradiction
    . contradiction

theorem eq_hextets {hs : List Nat} (h : hs.length = 8) :
    ∃ a b c d e f g i, hs = [a, b, c, d, e, f, g, i] := by
  match hs, h with
  | [a, b, c, d, e, f, g, i], _ => exact ⟨a, b, c, d, e, f, g, i, rfl⟩

theorem addressValue_inj {hs hs' : List Nat} (hlen : hs.length = hs'.length)
    (h : ∀ g ∈ hs, g < 65536) (h' : ∀ g ∈ hs', g < 65536)
    (hvalue : addressValue hs = addressValue hs') : hs = hs' := by
  induction hs using List.reverseRecOn generalizing hs' with
  | nil => exact (List.length_eq_zero_iff.mp hlen.symm).symm
  | append_singleton hs g ih =>
    rcases List.eq_nil_or_concat hs' with rfl | ⟨init, g', rfl⟩
    . simp at hlen
    . simp only [List.length_append, List.length_singleton] at hlen
      simp only [List.concat_eq_append, List.length_append, List.length_singleton,
        List.forall_mem_append, List.forall_mem_cons, addressValue, List.foldl_append,
        List.foldl_cons, List.foldl_nil] at hvalue hlen h h'
      have hg := h.2.1
      have hg' := h'.2.1
      have hinit : addressValue hs = addressValue init := by
        simp only [addressValue]
        omega
      have hlast : g = g' := by omega
      rw [ih (by omega) h.1 h'.1 hinit, hlast, List.concat_eq_append]

end Bounds

section Embedded

theorem readOctet_toDigits {n : Nat} (h : n < 256) : readOctet (Nat.toDigits 10 n) = some n := by
  revert n
  decide +kernel

theorem dot_notMem_toDigits (n : Nat) : '.' ∉ Nat.toDigits 10 n := by
  intro h
  have := Nat.isDigit_of_mem_toDigits (by decide) (by decide) h
  simp at this

theorem octets_of_hextet (n : Nat) (h : n < 65536) :
    (n >>> 8) &&& 0xff = n / 256 ∧ n &&& 0xff = n % 256 := by
  have hmask (m : Nat) : m &&& 0xff = m % 256 := Nat.and_two_pow_sub_one_eq_mod m 8
  rw [hmask, hmask, Nat.shiftRight_eq_div_pow]
  omega

theorem readIPv4_hextetsToV4 {hi lo : Nat} (hhi : hi < 65536) (hlo : lo < 65536) :
    readIPv4 (hextetsToV4 hi lo) = some (hi * 65536 + lo) := by
  have hsplit (n : Nat) (t : Text) : (Nat.toDigits 10 n ++ '.' :: t).splitOn '.' =
      Nat.toDigits 10 n :: t.splitOn '.' :=
    List.splitOn_append_cons_self_of_not_mem (dot_notMem_toDigits n) t
  have hsingle (n : Nat) : (Nat.toDigits 10 n).splitOn '.' = [Nat.toDigits 10 n] :=
    List.splitOn_eq_singleton (dot_notMem_toDigits n)
  rcases octets_of_hextet hi hhi with ⟨ha, hb⟩
  rcases octets_of_hextet lo hlo with ⟨hc, hd⟩
  simp only [readIPv4, hextetsToV4, ha, hb, hc, hd, List.append_assoc, List.cons_append, hsplit,
    hsingle, List.mapM_cons, List.mapM_nil, readOctet_toDigits (show hi / 256 < 256 by omega),
    readOctet_toDigits (show hi % 256 < 256 by omega),
    readOctet_toDigits (show lo / 256 < 256 by omega),
    readOctet_toDigits (show lo % 256 < 256 by omega)]
  simp only [Option.bind_eq_bind, Option.bind_some, Option.pure_def, Option.some.injEq]
  omega

theorem readAddress_none {t : Text} (h : ':' ∉ t) : readAddress t = none := by
  have hcut : cut t = (t, none) := by
    rcases hcut : cut t with ⟨a, _ | b⟩
    . rw [cut_none hcut]
    . rw [cut_some hcut] at h
      simp at h
  simp only [readAddress, hcut, Option.filter_eq_none_iff, decide_eq_true_eq]
  intro hs hlast
  unfold readLast at hlast
  split at hlast
  . simp only [Option.some.injEq] at hlast
    simp [← hlast]
  . rw [List.splitOn_eq_singleton h] at hlast
    rcases readFields_cases hlast with hgroups | ⟨init, d, gs₀, v, hps, hinit, hd, rfl⟩
    . rw [← length_of_mapM hgroups]
      simp
    . rcases List.append_inj' (show [] ++ [t] = init ++ [d] from hps) rfl with ⟨rfl, _⟩
      rw [List.length_append, ← length_of_mapM hinit]
      simp

theorem isIPv6_of_no_colon {t : Text} (h : ':' ∉ t) : isIPv6 t = false := by
  simp only [isIPv6, readIPv6]
  split
  . rw [readAddress_none h]
    rfl
  . split
    . rw [readAddress_none fun hmem => h ((List.takeWhile_subset _) hmem)]
      rfl
    . rfl

/-- Without a `:` the classification does not recurse. -/
theorem isBlockedAddressBody_congr {t : Text} (h : ':' ∉ t) (self self' : Text → Bool) :
    isBlockedAddressBody self t = isBlockedAddressBody self' t := by
  simp only [isBlockedAddressBody, isIPv6_of_no_colon h]
  rfl

theorem isBlockedAddressBody_of_readIPv4 {t : Text} {v : Nat} (h : readIPv4 t = some v)
    (self : Text → Bool) : isBlockedAddressBody self t = blockedV4.member 32 v := by
  have hv4 : isIPv4 t = true := by rw [isIPv4, h]; rfl
  rw [isBlockedAddressBody, if_pos hv4, BlockList.checkV4, h]

theorem colon_notMem_of_isDottedQuad {t : Text} (h : isDottedQuad t = true) : ':' ∉ t := by
  intro hmem
  have := chars_of_isDottedQuad h hmem
  simp at this

theorem colon_notMem_hextetsToV4 (hi lo : Nat) : ':' ∉ hextetsToV4 hi lo := by
  have hfree (n : Nat) : ':' ∉ Nat.toDigits 10 n := by
    intro h
    have := Nat.isDigit_of_mem_toDigits (by decide) (by decide) h
    simp at this
  simp [hextetsToV4, hfree]

theorem colon_notMem_mappedTail {t v4 : Text} (h : mappedTail t = some v4) : ':' ∉ v4 := by
  unfold mappedTail at h
  split at h
  . dsimp only at h
    split at h
    . next hquad =>
      simp only [Option.some.injEq] at h
      exact h ▸ colon_notMem_of_isDottedQuad hquad
    . split at h
      . split at h
        . simp only [Option.some.injEq] at h
          exact h ▸ colon_notMem_hextetsToV4 _ _
        . contradiction
      . contradiction
  . contradiction

/-- `isBlockedAddress` satisfies the recursion of the source. -/
theorem isBlockedAddress_eq (ip : Text) :
    isBlockedAddress ip = isBlockedAddressBody isBlockedAddress ip := by
  have hself {t : Text} (h : ':' ∉ t) :
      isBlockedAddressBody (fun _ => true) t = isBlockedAddress t :=
    isBlockedAddressBody_congr h _ _
  rw [isBlockedAddress, isBlockedAddressBody, isBlockedAddressBody]
  split
  . rfl
  . split
    . dsimp only
      split
      . next v4 hv4 => rw [hself (colon_notMem_mappedTail hv4)]
      . split
        . rw [hself (colon_notMem_hextetsToV4 _ _)]
        . rfl
    . rfl

end Embedded

section Verdict

/-- The verdict on eight hextets. -/
def verdict (hs : List Nat) : Bool :=
  match embeddedV4 hs with
  | some (hi, lo) => blockedV4.member 32 (hi * 65536 + lo)
  | none =>
    blockedV6.member 128 (addressValue hs) || !globalUnicastV6.member 128 (addressValue hs)

theorem embeddedV4_mem {hs : List Nat} {hi lo : Nat} (h : embeddedV4 hs = some (hi, lo)) :
    (hi ∈ hs ∨ hi = 0) ∧ (lo ∈ hs ∨ lo = 0) := by
  have hat (i : Nat) : hs.getD i 0 ∈ hs ∨ hs.getD i 0 = 0 := by
    rw [List.getD_eq_getElem?_getD]
    cases hget : hs[i]? with
    | none => exact .inr rfl
    | some g => exact .inl (List.mem_of_getElem? hget)
  unfold embeddedV4 at h
  dsimp only at h
  split_ifs at h <;> simp only [Option.some.injEq, Prod.mk.injEq] at h <;>
    rw [← h.1, ← h.2] <;> exact ⟨hat _, hat _⟩

theorem readIPv6_of_zone {t : Text} (h : '%' ∉ t) : readIPv6 t = readAddress t := by
  have hdrop : t.dropWhile (· ≠ '%') = [] := by
    rw [List.dropWhile_eq_nil_iff]
    intro c hc
    simp only [ne_eq, decide_eq_true_eq]
    rintro rfl
    exact h hc
  rw [readIPv6, hdrop]

theorem readGroup_of_dot {p : Text} (h : '.' ∈ p) : readGroup p = none := by
  cases hgroup : readGroup p with
  | none => rfl
  | some g =>
    have := (char_of_readGroup hgroup).2 '.' h
    simp [isHexDigit] at this

theorem readGroup_of_isLowerGroup {p : Text} (h : isLowerGroup p = true) :
    readGroup p = some (hexValue p) := by
  simp only [isLowerGroup, Bool.and_eq_true, decide_eq_true_eq, List.all_eq_true] at h
  have hhex : p.all isHexDigit = true := by
    rw [List.all_eq_true]
    intro c hc
    rw [isHexDigit, h.2 c hc, Bool.true_or]
  rw [readGroup, if_pos]
  simp only [Bool.and_eq_true, decide_eq_true_eq]
  exact ⟨h.1, hhex⟩

theorem readAddress_mapped {tail : Text} {hs : List Nat}
    (h : readAddress ("::ffff:".toList ++ tail) = some hs) :
    ∃ gs, readFields (tail.splitOn ':') = some gs ∧
      hs = List.replicate (7 - gs.length) 0 ++ 0xffff :: gs := by
  have hcut : cut ("::ffff:".toList ++ tail) = ([], some ("ffff:".toList ++ tail)) := rfl
  have hlast : readLast ("ffff:".toList ++ tail) =
      readFields ("ffff".toList :: tail.splitOn ':') := by
    have hfree : ':' ∉ "ffff".toList := by decide
    have hsplit : ("ffff:".toList ++ tail).splitOn ':' = "ffff".toList :: tail.splitOn ':' :=
      List.splitOn_append_cons_self_of_not_mem hfree tail
    rw [← hsplit]
    rfl
  have hgroups : readGroups [] = some [] := rfl
  simp only [readAddress, hcut, hgroups, hlast] at h
  cases hps : tail.splitOn ':' with
  | nil => exact absurd hps (List.splitOn_ne_nil _ _)
  | cons p ps =>
    have hffff : readGroup "ffff".toList = some 0xffff := by decide
    rw [hps] at h
    simp only [readFields, hffff] at h
    cases hfields : readFields (p :: ps) with
    | none =>
      rw [hfields] at h
      contradiction
    | some gs =>
      rw [hfields] at h
      simp only [List.length_nil, List.length_cons, List.nil_append, Nat.zero_add] at h
      split at h
      . simp only [Option.some.injEq] at h
        refine ⟨gs, rfl, ?_⟩
        rw [← h, show 8 - 0 - (gs.length + 1) = 7 - gs.length by omega]
      . contradiction

theorem mappedTail_spec {t v4 : Text} {hs : List Nat} (hlower : IsLower t)
    (h : readAddress t = some hs) (htail : mappedTail t = some v4) :
    ∃ hi lo, hs = [0, 0, 0, 0, 0, 0xffff, hi, lo] ∧ readIPv4 v4 = some (hi * 65536 + lo) := by
  unfold mappedTail at htail
  split at htail
  . next hprefix =>
    rcases List.isPrefixOf_iff_prefix.mp hprefix with ⟨tail, rfl⟩
    have hdrop : ("::ffff:".toList ++ tail).drop "::ffff:".length = tail := rfl
    simp only [hdrop] at htail
    rcases readAddress_mapped h with ⟨gs, hfields, hhs⟩
    split at htail
    . next hquad =>
      simp only [Option.some.injEq] at htail
      subst htail
      rw [List.splitOn_eq_singleton (colon_notMem_of_isDottedQuad hquad), readFields,
        readGroup_of_dot (dot_of_isDottedQuad hquad)] at hfields
      simp only [Option.map_eq_some_iff] at hfields
      rcases hfields with ⟨v, hv, rfl⟩
      refine ⟨v / 65536, v % 65536, hhs, ?_⟩
      rw [hv]
      simp only [Option.some.injEq]
      omega
    . split at htail
      . next g l hsplit =>
        split at htail
        . next hgroups =>
          simp only [Bool.and_eq_true] at hgroups
          simp only [Option.some.injEq] at htail
          have hg := readGroup_of_isLowerGroup hgroups.1
          have hl := readGroup_of_isLowerGroup hgroups.2
          simp only [hsplit, readFields, hg, hl, Option.some.injEq] at hfields
          subst hfields
          exact ⟨_, _, hhs, htail ▸ readIPv4_hextetsToV4 (readGroup_lt hg) (readGroup_lt hl)⟩
        . contradiction
      . contradiction
  . contradiction

theorem verdict_mapped {hi lo : Nat} : verdict [0, 0, 0, 0, 0, 0xffff, hi, lo] =
    blockedV4.member 32 (hi * 65536 + lo) := by
  simp [verdict, embeddedV4]

theorem isBlockedAddressBody_v6 {self : Text → Bool} {ip : Text} (hv4 : isIPv4 ip = false) (hv6 : isIPv6 ip = true) :
    isBlockedAddressBody self ip =
      match mappedTail (toLowerCase ip) with
      | some v4 => self v4
      | none =>
        match (expandIPv6 (toLowerCase ip)).bind embeddedV4 with
        | some (hi, lo) => self (hextetsToV4 hi lo)
        | none => blockedV6.checkV6 (toLowerCase ip) || !globalUnicastV6.checkV6 (toLowerCase ip) := by
  rw [isBlockedAddressBody, hv4, hv6]
  rfl

theorem isBlockedAddress_of_read {ip : Text} {hs : List Nat} (hzone : '%' ∉ ip)
    (h : readIPv6 ip = some hs) : isBlockedAddress ip = verdict hs := by
  have hread := readIPv6_of_zone hzone
  rw [hread] at h
  have hcolon : ':' ∈ ip := by
    by_contra hno
    rw [readAddress_none hno] at h
    contradiction
  have hv4 : isIPv4 ip = false := by
    cases hquad : readIPv4 ip with
    | none => rw [isIPv4, hquad]; rfl
    | some v => exact absurd hcolon (colon_notMem_of_isDottedQuad (isDottedQuad_of_readIPv4 hquad))
  have hv6 : isIPv6 ip = true := by rw [isIPv6, hread, h]; rfl
  have hlower := isLower_toLowerCase ip
  have haddress : readAddress (toLowerCase ip) = some hs := by rw [readAddress_toLowerCase, h]
  have hbounds := readAddress_bounds h
  rw [isBlockedAddress, isBlockedAddressBody_v6 hv4 hv6]
  split
  . next v4 htail =>
    rcases mappedTail_spec hlower haddress htail with ⟨hi, lo, rfl, hread⟩
    rw [isBlockedAddressBody_of_readIPv4 hread, verdict_mapped]
  . rw [expandIPv6_of_readAddress hlower haddress, Option.bind_some, verdict]
    have hlowerRead : readIPv6 (toLowerCase ip) = some hs := by
      rw [readIPv6_of_zone, haddress]
      intro hmem
      rcases List.mem_map.mp hmem with ⟨c, hc, heq⟩
      rw [toLower_eq_iff (by decide)] at heq
      exact hzone (heq ▸ hc)
    split
    . next hi lo hembedded =>
      rcases embeddedV4_mem hembedded with ⟨hhi, hlo⟩
      have hlt {g : Nat} (hg : g ∈ hs ∨ g = 0) : g < 65536 := by
        rcases hg with hg | rfl
        . exact hbounds.2 g hg
        . decide
      exact isBlockedAddressBody_of_readIPv4 (readIPv4_hextetsToV4 (hlt hhi) (hlt hlo)) _
    . simp only [BlockList.checkV6, hlowerRead]

end Verdict

section Addresses

/-- The value of a literal that stands in a declaration. -/
def net (text : String) : Nat := ((readIPv6 text.toList).map addressValue).getD 0

def inPrefix (v : Nat) (subnet : String) (len : Nat) : Prop :=
  v / 2 ^ (128 - len) = net subnet / 2 ^ (128 - len)

def lowBits (v : Nat) : Nat := v % 2 ^ 32

/-- The declared embeddings of an IPv4 address. -/
inductive Embedding where
  | sixToFour
  | nat64
  | compatible
  | mapped
  | translatable

def Embedding.subnet (e : Embedding) : String × Nat :=
  match e with
  | .sixToFour => ("2002::", 16)
  | .nat64 => ("64:ff9b::", 96)
  | .compatible => ("::", 96)
  | .mapped => ("::ffff:0:0", 96)
  | .translatable => ("::ffff:0:0:0", 96)

/-- The embedded address: the bits after the prefix of 6to4, the last ones of the other forms. -/
def Embedding.embedded (e : Embedding) (v : Nat) : Nat :=
  match e with
  | .sixToFour => v / 2 ^ 80 % 2 ^ 32
  | .nat64 | .compatible | .mapped | .translatable => lowBits v

/-- `v` embeds an IPv4 address that is not blocked in the form `e`. -/
def Embedding.Public (e : Embedding) (v : Nat) : Prop :=
  inPrefix v e.subnet.1 e.subnet.2 ∧ blockedV4.member 32 (e.embedded v) = false

/--
The values that may be allowed: global unicast that is not 6to4, and an embedding of a non-blocked
IPv4 address in exactly one of the declared forms.
-/
def Allowable (v : Nat) : Prop :=
  inPrefix v "2000::" 3 ∧ ¬inPrefix v "2002::" 16 ∨ ∃! e : Embedding, e.Public v

/-- `64:ff9b::/32` outside of the declared `64:ff9b::/96`, with a public address in the last bits. -/
def BeyondNat64 (v : Nat) : Prop :=
  inPrefix v "64:ff9b::" 32 ∧ ¬inPrefix v "64:ff9b::" 96 ∧ blockedV4.member 32 (lowBits v) = false

theorem net_values : net "2002::" = 0x2002 * 2 ^ 112 ∧ net "64:ff9b::" = 0x64ff9b * 2 ^ 96 ∧
    net "::" = 0 ∧ net "::ffff:0:0" = 0xffff * 2 ^ 32 ∧ net "::ffff:0:0:0" = 0xffff * 2 ^ 48 ∧
    net "2000::" = 0x2000 * 2 ^ 112 := by
  decide +kernel

theorem blockedV6_eq : blockedV6 = [(0, 128), (1, 128), (0, 3), (0xfc00 * 2 ^ 112, 7),
    (0xfe80 * 2 ^ 112, 10), (0xfec0 * 2 ^ 112, 10)] := by
  decide +kernel

theorem globalUnicastV6_eq : globalUnicastV6 = [(0x2000 * 2 ^ 112, 3)] := by
  decide +kernel

theorem inPrefix_iff (v : Nat) :
    (inPrefix v "2000::" 3 ↔ v / 2 ^ 125 = 1) ∧ (inPrefix v "2002::" 16 ↔ v / 2 ^ 112 = 0x2002) ∧
    (inPrefix v "64:ff9b::" 32 ↔ v / 2 ^ 96 = 0x64ff9b) ∧
    (inPrefix v "64:ff9b::" 96 ↔ v / 2 ^ 32 = 0x64ff9b * 2 ^ 64) ∧
    (inPrefix v "::" 96 ↔ v / 2 ^ 32 = 0) ∧ (inPrefix v "::ffff:0:0" 96 ↔ v / 2 ^ 32 = 0xffff) ∧
    (inPrefix v "::ffff:0:0:0" 96 ↔ v / 2 ^ 32 = 0xffff * 2 ^ 16) := by
  rcases net_values with ⟨h6to4, hnat64, hcompat, hmapped, htranslatable, hunicast⟩
  simp [inPrefix, h6to4, hnat64, hcompat, hmapped, htranslatable, hunicast]

theorem embeddings_disjoint {v : Nat} {e e' : Embedding} (h : inPrefix v e.subnet.1 e.subnet.2)
    (h' : inPrefix v e'.subnet.1 e'.subnet.2) : e = e' := by
  rcases inPrefix_iff v with ⟨_, h6to4, _, hnat64, hcompat, hmapped, htranslatable⟩
  cases e <;> cases e' <;>
    simp only [Embedding.subnet, h6to4, hnat64, hcompat, hmapped, htranslatable] at h h' <;>
    first
    | rfl
    | omega

theorem allowable_iff (v : Nat) : Allowable v ↔
    v / 2 ^ 125 = 1 ∧ v / 2 ^ 112 ≠ 0x2002 ∨
    v / 2 ^ 112 = 0x2002 ∧ blockedV4.member 32 (v / 2 ^ 80 % 2 ^ 32) = false ∨
    (v / 2 ^ 32 = 0x64ff9b * 2 ^ 64 ∨ v / 2 ^ 32 = 0 ∨ v / 2 ^ 32 = 0xffff ∨
      v / 2 ^ 32 = 0xffff * 2 ^ 16) ∧ blockedV4.member 32 (v % 2 ^ 32) = false := by
  have hunique : (∃! e : Embedding, e.Public v) ↔ ∃ e : Embedding, e.Public v := by
    constructor
    . rintro ⟨e, he, _⟩
      exact ⟨e, he⟩
    . rintro ⟨e, hpublic⟩
      refine ⟨e, hpublic, ?_⟩
      intro e' hpublic'
      exact embeddings_disjoint hpublic'.1 hpublic.1
  have hcases : (∃ e : Embedding, e.Public v) ↔ Embedding.sixToFour.Public v ∨
      Embedding.nat64.Public v ∨ Embedding.compatible.Public v ∨ Embedding.mapped.Public v ∨
      Embedding.translatable.Public v := by
    constructor
    . rintro ⟨e, he⟩
      cases e
      case sixToFour => exact .inl he
      case nat64 => exact .inr (.inl he)
      case compatible => exact .inr (.inr (.inl he))
      case mapped => exact .inr (.inr (.inr (.inl he)))
      case translatable => exact .inr (.inr (.inr (.inr he)))
    . rintro (he | he | he | he | he) <;> exact ⟨_, he⟩
  rcases inPrefix_iff v with ⟨hunicast, h6to4, _, hnat64, hcompat, hmapped, htranslatable⟩
  rw [Allowable, hunique, hcases]
  simp only [Embedding.Public, Embedding.subnet, Embedding.embedded, hunicast, h6to4, hnat64,
    hcompat, hmapped, htranslatable, lowBits, or_and_right, ne_eq]

theorem beyondNat64_iff (v : Nat) : BeyondNat64 v ↔ v / 2 ^ 96 = 0x64ff9b ∧
    v / 2 ^ 32 ≠ 0x64ff9b * 2 ^ 64 ∧ blockedV4.member 32 (v % 2 ^ 32) = false := by
  rcases inPrefix_iff v with ⟨_, _, hwide, hnat64, _⟩
  rw [BeyondNat64, hwide, hnat64, lowBits]

theorem value_parts {a b c d e f g i : Nat} (hb : b < 65536) (hc : c < 65536) (hd : d < 65536)
    (he : e < 65536) (hf : f < 65536) (hg : g < 65536) (hi : i < 65536) {v : Nat}
    (hv : addressValue [a, b, c, d, e, f, g, i] = v) :
    v / 2 ^ 125 = a / 2 ^ 13 ∧ v / 2 ^ 112 = a ∧ v / 2 ^ 96 = a * 65536 + b ∧
    v / 2 ^ 32 = ((((a * 65536 + b) * 65536 + c) * 65536 + d) * 65536 + e) * 65536 + f ∧
    v / 2 ^ 80 % 2 ^ 32 = b * 65536 + c ∧ v % 2 ^ 32 = g * 65536 + i := by
  simp only [addressValue, List.foldl_cons, List.foldl_nil] at hv
  omega

/-- What no embedding test classifies is allowed exactly in `2000::/3`. -/
theorem fallthrough_iff (v : Nat) :
    (blockedV6.member 128 v || !globalUnicastV6.member 128 v) = false ↔ v / 2 ^ 125 = 1 := by
  simp only [blockedV6_eq, globalUnicastV6_eq, BlockList.member, inSubnet, List.any_cons,
    List.any_nil, Bool.or_false, Bool.or_eq_false_iff, Bool.not_eq_false', decide_eq_true_eq,
    decide_eq_false_iff_not]
  omega

theorem member_zero : blockedV4.member 32 0 = true := by decide +kernel

theorem embeddedV4_eq (a b c d e f g i : Nat) : embeddedV4 [a, b, c, d, e, f, g, i] =
    if a = 0x2002 then some (b, c)
    else if a = 0x64 ∧ b = 0xff9b then some (g, i)
    else if (a = 0 ∧ b = 0 ∧ c = 0 ∧ d = 0 ∧ e = 0 ∧ f = 0) ∧ (¬g = 0 ∨ ¬i = 0) then some (g, i)
    else if a = 0 ∧ b = 0 ∧ c = 0 ∧ d = 0 ∧ e = 0xffff ∧ f = 0 then some (g, i)
    else if a = 0 ∧ b = 0 ∧ c = 0 ∧ d = 0 ∧ e = 0 ∧ f = 0xffff then some (g, i)
    else none := by
  simp [embeddedV4, and_assoc, Nat.or_eq_zero_iff]

/-- The ladder, test by test. -/
theorem verdict_iff (a b c d e f g i : Nat) : verdict [a, b, c, d, e, f, g, i] = false ↔
    if a = 0x2002 then blockedV4.member 32 (b * 65536 + c) = false
    else if a = 0x64 ∧ b = 0xff9b ∨
        a = 0 ∧ b = 0 ∧ c = 0 ∧ d = 0 ∧ (e = 0 ∧ f = 0 ∨ e = 0xffff ∧ f = 0 ∨ e = 0 ∧ f = 0xffff) then
      blockedV4.member 32 (g * 65536 + i) = false
    else addressValue [a, b, c, d, e, f, g, i] / 2 ^ 125 = 1 := by
  by_cases hunspecified : a = 0 ∧ b = 0 ∧ c = 0 ∧ d = 0 ∧ e = 0 ∧ f = 0 ∧ g = 0 ∧ i = 0
  . -- the unspecified address falls through, where it is blocked as `0.0.0.0` is
    rcases hunspecified with ⟨rfl, rfl, rfl, rfl, rfl, rfl, rfl, rfl⟩
    have hfall : verdict [0, 0, 0, 0, 0, 0, 0, 0] = true := by decide +kernel
    simp [hfall, member_zero]
  rw [verdict, embeddedV4_eq]
  split_ifs <;> first
    | rfl
    | exact fallthrough_iff _
    | (exfalso; omega)

/-- What the code allows is what the declared prefixes allow, and what is beyond NAT64. -/
theorem allowed_iff {hs : List Nat} (hlen : hs.length = 8) (hbound : ∀ g ∈ hs, g < 65536) :
    verdict hs = false ↔ Allowable (addressValue hs) ∨ BeyondNat64 (addressValue hs) := by
  rcases eq_hextets hlen with ⟨a, b, c, d, e, f, g, i, rfl⟩
  simp only [List.forall_mem_cons, List.not_mem_nil, false_implies, implies_true, and_true]
    at hbound
  rcases hbound with ⟨ha, hb, hc, hd, he, hf, hg, hi⟩
  rcases value_parts hb hc hd he hf hg hi rfl with ⟨hunicast, hfirst, hwide, hhigh, h6to4, hlow⟩
  rw [verdict_iff, allowable_iff, beyondNat64_iff, hunicast, hfirst, hwide, hhigh, h6to4, hlow]
  clear hunicast hfirst hwide hhigh h6to4 hlow
  split_ifs with h6 hladder
  . -- 6to4
    constructor
    . intro h
      exact .inl (.inr (.inl ⟨h6, h⟩))
    . rintro ((⟨_, h⟩ | ⟨_, h⟩ | ⟨h, _⟩) | ⟨h, _⟩)
      . exact absurd h6 h
      . exact h
      . have htop : a ≤ 0x64 := by
          clear h6
          omega
        rw [h6] at htop
        contradiction
      . omega
  . -- the forms that embed the address in the last bits
    constructor
    . intro h
      by_cases hdeclared : ((((a * 65536 + b) * 65536 + c) * 65536 + d) * 65536 + e) * 65536 + f =
          0x64ff9b * 2 ^ 64 ∨ ¬a = 0x64
      . exact .inl (.inr (.inr ⟨by omega, h⟩))
      . exact .inr ⟨by omega, fun hk => hdeclared (.inl hk), h⟩
    . rintro ((⟨h, _⟩ | ⟨h, _⟩ | ⟨_, h⟩) | ⟨_, _, h⟩)
      . omega
      . exact absurd h h6
      . exact h
      . exact h
  . -- no embedding
    constructor
    . intro h
      exact .inl (.inl ⟨by omega, h6⟩)
    . rintro ((⟨h, _⟩ | ⟨h, _⟩ | ⟨h, _⟩) | ⟨h, _⟩)
      . omega
      . exact absurd h h6
      . omega
      . omega

end Addresses

section Claim

def valueOf (ip : Text) : Option Nat := (readIPv6 ip).map addressValue

/-- The verdict depends on the value only, and allows only what the declared prefixes allow. -/
def Classified (ip : Text) : Prop :=
  (∀ ip', isIPv6 ip' = true → '%' ∉ ip' → valueOf ip' = valueOf ip →
    isBlockedAddress ip' = isBlockedAddress ip) ∧
  (isBlockedAddress ip = false → ∀ v, valueOf ip = some v → Allowable v)

theorem not_allowable_of_beyondNat64 {v : Nat} (h : BeyondNat64 v) : ¬Allowable v := by
  rw [beyondNat64_iff] at h
  rw [allowable_iff]
  omega

theorem valueOf_eq {ip : Text} (h : isIPv6 ip = true) (hzone : '%' ∉ ip) :
    ∃ hs, readIPv6 ip = some hs ∧ valueOf ip = some (addressValue hs) ∧ hs.length = 8 ∧
      ∀ g ∈ hs, g < 65536 := by
  rw [isIPv6, Option.isSome_iff_exists] at h
  rcases h with ⟨hs, hread⟩
  have hbounds := readAddress_bounds (readIPv6_of_zone hzone ▸ hread)
  exact ⟨hs, hread, by rw [valueOf, hread, Option.map_some], hbounds.1, hbounds.2⟩

theorem isBlockedAddress_congr {ip ip' : Text} (h : isIPv6 ip = true) (hzone : '%' ∉ ip)
    (h' : isIPv6 ip' = true) (hzone' : '%' ∉ ip') (hvalue : valueOf ip' = valueOf ip) :
    isBlockedAddress ip' = isBlockedAddress ip := by
  rcases valueOf_eq h hzone with ⟨hs, hread, hv, hlen, hbound⟩
  rcases valueOf_eq h' hzone' with ⟨hs', hread', hv', hlen', hbound'⟩
  rw [hv, hv', Option.some.injEq] at hvalue
  have heq : hs' = hs := addressValue_inj (by rw [hlen, hlen']) hbound' hbound hvalue
  rw [isBlockedAddress_of_read hzone hread, isBlockedAddress_of_read hzone' hread', heq]

/-- Literals are classified as declared exactly outside of the widened NAT64 test. -/
theorem classified_iff (ip : Text) (h : isIPv6 ip = true) (hzone : '%' ∉ ip) :
    Classified ip ↔ ∀ v, valueOf ip = some v → ¬BeyondNat64 v := by
  rcases valueOf_eq h hzone with ⟨hs, hread, hv, hlen, hbound⟩
  have hallowed := allowed_iff hlen hbound
  rw [← isBlockedAddress_of_read hzone hread] at hallowed
  constructor
  . intro hclassified v hvalue hbeyond
    rw [hv, Option.some.injEq] at hvalue
    subst hvalue
    have hopen := hallowed.mpr (.inr hbeyond)
    exact not_allowable_of_beyondNat64 hbeyond (hclassified.2 hopen _ hv)
  . intro hno
    refine ⟨fun ip' h' hzone' => isBlockedAddress_congr h hzone h' hzone', ?_⟩
    intro hopen v hvalue
    rcases hallowed.mp hopen with hallow | hbeyond
    . rw [hv, Option.some.injEq] at hvalue
      exact hvalue ▸ hallow
    . exact absurd hbeyond (hno _ hv)

theorem classified_iff_nat64 : Classified "64:ff9b::8.8.8.8".toList ↔
    ∀ v, valueOf "64:ff9b::8.8.8.8".toList = some v → ¬BeyondNat64 v :=
  classified_iff "64:ff9b::8.8.8.8".toList (by decide) (by decide)

/-- The local-use prefix `64:ff9b:1::/48` is taken for the well-known one. -/
theorem localUse_allowed : isBlockedAddress "64:ff9b:1::8.8.8.8".toList = false ∧
    valueOf "64:ff9b:1::8.8.8.8".toList = some (0x64ff9b0001 * 2 ^ 80 + 0x08080808) ∧
    ¬Allowable (0x64ff9b0001 * 2 ^ 80 + 0x08080808) := by
  refine ⟨by decide +kernel, by decide +kernel, ?_⟩
  apply not_allowable_of_beyondNat64
  rw [beyondNat64_iff]
  decide +kernel

end Claim

end OpenWA.Ssrf
