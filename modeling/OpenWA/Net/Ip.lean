import OpenWA.Js.Double
import OpenWA.Ssrf.SsrfGuard

/-!
This module contains the resolution of a client address behind trusted proxies and the match of an
address against an allowlist.
-/

namespace OpenWA.Net

open Js

/-- `/^::ffff:(\d{1,3}(?:\.\d{1,3}){3})$/i` -/
def normalizeIp (ip : Text) : Text :=
  if (ip.take 7).map Char.toLower = "::ffff:".toList && Ssrf.isDottedQuad (ip.drop 7) then ip.drop 7
  else ip

/-- The octets that are left, in base 256. -/
def readParts (parts : List Text) (result : Nat) : Option Nat :=
  match parts with
  | [] => some result
  | part :: parts =>
    if !(1 ≤ part.length && part.length ≤ 3 && part.all Char.isDigit) then none
    else if digitsValue part > 255 then none
    else readParts parts (result * 256 + digitsValue part)

def ipv4ToInt (ip : Text) : Option (BitVec 32) :=
  if (ip.splitOn '.').length ≠ 4 then none
  else (readParts (ip.splitOn '.') 0).map (BitVec.ofNat 32)

/-- A number that `Number.isInteger` accepts, between 0 and 32. -/
def prefixBits (bits : ExactNumber) : Option Nat :=
  match bits with
  | .finite r => if r.den = 1 && 0 ≤ r.num && r.num ≤ 32 then some r.num.toNat else none
  | _ => none

/-- `0xffffffff << (32 - bits)` -/
def maskOf (bits : Nat) : BitVec 32 := BitVec.allOnes 32 <<< (32 - bits)

def ipMatches (ip target : Text) : Bool :=
  let candidate := normalizeIp (trim ip)
  let ref := trim target
  if '/' ∉ ref then normalizeIp ref = candidate
  else
    match ref.splitOn '/' with
    | range :: bitsRaw :: _ =>
      match prefixBits (stringToNumber bitsRaw) with
      | none => false
      | some bits =>
        match ipv4ToInt candidate, ipv4ToInt (normalizeIp range) with
        | some ipInt, some rangeInt =>
          if bits = 0 then true
          -- the shift by 32 bits would be one by none
          else ipInt &&& maskOf bits = rangeInt &&& maskOf bits
        | _, _ => false
    | _ => false

/-- A header that was sent, once or several times. -/
inductive HeaderValue where
  | one (t : Text)
  | many (ts : List Text)

/-- What of a request names its sender. -/
structure RequestLike where
  ip : Option Text
  remoteAddress : Option Text
  forwardedFor : Option HeaderValue

/-- `a || b` of a string that may be missing -/
def orElse (a : Option Text) (b : Text) : Text :=
  match a with
  | some t => if t.isEmpty then b else t
  | none => b

/-- The hops of the `x-forwarded-for` header, the client's end first; `none` without a header. -/
def forwardedHops (forwarded : Option HeaderValue) : Option (List Text) :=
  let text :=
    match forwarded with
    | none | some (.one []) => none
    | some (.one t) => some t
    | some (.many ts) => some ([','].intercalate ts)
  text.map fun t =>
    ((t.splitOn ',').map fun hop => normalizeIp (trim hop)).filter fun hop => !hop.isEmpty

def resolveClientIp (req : RequestLike) (trustedProxies : List Text) : Text :=
  let socketIp := normalizeIp (orElse req.remoteAddress (orElse req.ip []))
  let isTrusted := fun ip => trustedProxies.any (ipMatches ip)
  if trustedProxies.isEmpty then socketIp
  else if !isTrusted socketIp then socketIp
  else
    match forwardedHops req.forwardedFor with
    | none => socketIp
    | some hops => (hops.reverse.find? fun hop => !isTrusted hop).getD socketIp

section Blocks

/-- The candidate is an address whose first `n` bits are those of the range. -/
def inBlock (candidate range : Text) (n : Nat) : Bool :=
  match ipv4ToInt candidate, ipv4ToInt range with
  | some v, some w => Ssrf.inSubnet 32 v.toNat w.toNat n
  | _, _ => false

def isDecimal (t : Text) : Bool := !t.isEmpty && t.all Char.isDigit

/-- What an entry of an allowlist stands for: an address, or a block as `<address>/<prefix length>`. -/
def declaredMatch (ip target : Text) : Bool :=
  match (trim target).splitOn '/' with
  | [ref] => normalizeIp ref = normalizeIp (trim ip)
  | [range, n] =>
    isDecimal n && digitsValue n ≤ 32 && inBlock (normalizeIp (trim ip)) (normalizeIp range) (digitsValue n)
  | _ => false

/--
The block that is read from a malformed entry: the prefix length is not written in digits, or a second
slash follows it, and `Number` makes a prefix length of it.
-/
def looseBlock (target : Text) : Option (Text × Nat) :=
  match (trim target).splitOn '/' with
  | range :: bitsRaw :: rest =>
    if isDecimal bitsRaw && rest.isEmpty then none
    else (prefixBits (stringToNumber bitsRaw)).map fun n => (range, n)
  | _ => none

theorem prefixBits_natCast (n : Nat) :
    prefixBits (.finite n) = if n ≤ 32 then some n else none := by
  simp [prefixBits]

/-- Decimal digits are read as the number they write. -/
theorem prefixBits_digits {t : Text} (h : isDecimal t = true) :
    prefixBits (stringToNumber t) = if digitsValue t ≤ 32 then some (digitsValue t) else none := by
  simp only [isDecimal, Bool.and_eq_true, Bool.not_eq_true', List.isEmpty_eq_false_iff,
    List.all_eq_true] at h
  rw [stringToNumber_digits h.1 h.2]
  by_cases hsmall : digitsValue t < 2 ^ 53
  . rw [nearestDouble_natCast hsmall, prefixBits_natCast]
  . have hlarge : ¬ digitsValue t ≤ 32 := by omega
    rw [if_neg hlarge]
    rcases nearestDouble_natCast_large (not_lt.mp hsmall) with hinf | ⟨r, hr, hle⟩
    . rw [hinf]
      rfl
    . rw [hr, prefixBits, if_neg]
      simp only [Bool.and_eq_true, decide_eq_true_eq, not_and, and_imp]
      intro hden _ hnum
      have hr : r = r.num := (Rat.den_eq_one_iff r).mp hden |>.symm
      have : r ≤ 32 := by rw [hr]; exact_mod_cast hnum
      linarith

theorem and_shiftLeft_allOnes_eq_iff {w : Nat} (x y : BitVec w) (k : Nat) :
    x &&& BitVec.allOnes w <<< k = y &&& BitVec.allOnes w <<< k ↔
      x.toNat / 2 ^ k = y.toNat / 2 ^ k := by
  have hclear (z : BitVec w) : z &&& BitVec.allOnes w <<< k = (z >>> k) <<< k := by
    ext i hi
    simp only [BitVec.getElem_and, BitVec.getElem_shiftLeft, BitVec.getElem_allOnes,
      BitVec.getElem_ushiftRight]
    by_cases hk : i < k
    . simp [hk]
    . simp [hk, show k + (i - k) = i by omega, hi]
  have hshift (z : BitVec w) : (z &&& BitVec.allOnes w <<< k) >>> k = z >>> k := by
    ext i hi
    rw [BitVec.getElem_ushiftRight, BitVec.getElem_ushiftRight, BitVec.getLsbD_and,
      BitVec.getLsbD_shiftLeft]
    by_cases hk : k + i < w
    . simp [hk, show i < w by omega]
    . simp [hk, BitVec.getLsbD_of_ge z (k + i) (by omega)]
  rw [← Nat.shiftRight_eq_div_pow, ← Nat.shiftRight_eq_div_pow, ← BitVec.toNat_ushiftRight,
    ← BitVec.toNat_ushiftRight, BitVec.toNat_inj]
  constructor
  . intro h
    rw [← hshift x, h, hshift]
  . intro h
    rw [hclear, hclear, h]

theorem inBlock_eq (candidate range : Text) (n : Nat) :
    inBlock candidate range n =
      match ipv4ToInt candidate, ipv4ToInt range with
      | some ipInt, some rangeInt =>
        if n = 0 then true else decide (ipInt &&& maskOf n = rangeInt &&& maskOf n)
      | _, _ => false := by
  unfold inBlock
  split
  . next v w hv hw =>
    simp only [maskOf, and_shiftLeft_allOnes_eq_iff, Ssrf.inSubnet]
    split
    . next hzero =>
      have hv : v.toNat / 2 ^ 32 = 0 := Nat.div_eq_of_lt v.isLt
      have hw : w.toNat / 2 ^ 32 = 0 := Nat.div_eq_of_lt w.isLt
      rw [hzero, Nat.sub_zero, hv, hw]
      rfl
    . rfl
  . rfl

theorem ipMatches_of_noSlash {target : Text} (h : '/' ∉ trim target) (ip : Text) :
    ipMatches ip target = decide (normalizeIp (trim target) = normalizeIp (trim ip)) := by
  simp [ipMatches, h]

theorem noSlash_of_splitOn {t ref : Text} (h : t.splitOn '/' = [ref]) : '/' ∉ t := by
  intro hmem
  obtain ⟨before, after, rfl⟩ := List.append_of_mem hmem
  rw [List.splitOn_append_cons_self] at h
  have hbefore := List.splitOn_ne_nil '/' before
  have hafter := List.splitOn_ne_nil '/' after
  have hlength := congrArg List.length h
  have := List.length_pos_iff.mpr hbefore
  have := List.length_pos_iff.mpr hafter
  simp only [List.length_append, List.length_singleton] at hlength
  omega

theorem slash_mem_of_splitOn {t range bitsRaw : Text} {rest : List Text}
    (h : t.splitOn '/' = range :: bitsRaw :: rest) : '/' ∈ t := by
  by_contra hnot
  simp [List.splitOn_eq_singleton hnot] at h

/-- An entry with a slash is matched as the block that is read from its first two parts. -/
theorem ipMatches_of_slash {target range bitsRaw : Text} {rest : List Text}
    (h : (trim target).splitOn '/' = range :: bitsRaw :: rest) (ip : Text) :
    ipMatches ip target =
      match prefixBits (stringToNumber bitsRaw) with
      | none => false
      | some n => inBlock (normalizeIp (trim ip)) (normalizeIp range) n := by
  have hslash := slash_mem_of_splitOn h
  simp only [ipMatches, hslash, h, not_true_eq_false, if_false]
  cases hbits : prefixBits (stringToNumber bitsRaw) with
  | none => rfl
  | some n => exact (inBlock_eq _ _ n).symm

theorem declaredMatch_of_noSlash {target : Text} (h : '/' ∉ trim target) (ip : Text) :
    declaredMatch ip target = decide (normalizeIp (trim target) = normalizeIp (trim ip)) := by
  rw [declaredMatch, List.splitOn_eq_singleton h]

theorem declaredMatch_block {target range n : Text} (hn : isDecimal n = true)
    (h : (trim target).splitOn '/' = [range, n]) (ip : Text) :
    declaredMatch ip target = (decide (digitsValue n ≤ 32) &&
      inBlock (normalizeIp (trim ip)) (normalizeIp range) (digitsValue n)) := by
  simp [declaredMatch, h, hn]

theorem declaredMatch_of_malformed {target range bitsRaw : Text} {rest : List Text}
    (h : (trim target).splitOn '/' = range :: bitsRaw :: rest)
    (hform : isDecimal bitsRaw = true → rest ≠ []) (ip : Text) : declaredMatch ip target = false := by
  rw [declaredMatch, h]
  cases rest with
  | nil =>
    cases hdecimal : isDecimal bitsRaw with
    | true => exact absurd rfl (hform hdecimal)
    | false => simp [hdecimal]
  | cons part parts => rfl

/--
The code matches an address against an entry as the entry is written, if and only if the entry is not a
malformed block that the address is in.
-/
theorem ipMatches_eq_declaredMatch_iff (ip target : Text) :
    ipMatches ip target = declaredMatch ip target ↔
      ∀ range n, looseBlock target = some (range, n) →
        inBlock (normalizeIp (trim ip)) (normalizeIp range) n = false := by
  cases hsplit : (trim target).splitOn '/' with
  | nil => exact absurd hsplit (List.splitOn_ne_nil _ _)
  | cons range parts =>
    cases parts with
    | nil =>
      have hslash := noSlash_of_splitOn hsplit
      rw [ipMatches_of_noSlash hslash, declaredMatch_of_noSlash hslash, looseBlock, hsplit]
      simp
    | cons bitsRaw rest =>
      rw [ipMatches_of_slash hsplit, looseBlock, hsplit]
      dsimp only
      by_cases hform : (isDecimal bitsRaw && rest.isEmpty) = true
      . simp only [Bool.and_eq_true, List.isEmpty_iff] at hform
        rw [declaredMatch_block hform.1 (hform.2 ▸ hsplit), prefixBits_digits hform.1, hform.1, hform.2]
        by_cases hsmall : digitsValue bitsRaw ≤ 32
        . simp [hsmall]
        . simp [hsmall]
      . rw [declaredMatch_of_malformed hsplit (by simpa using hform), if_neg hform]
        cases hbits : prefixBits (stringToNumber bitsRaw) with
        | none => simp
        | some n => simp

/-- An empty prefix length is read as zero, which makes every address a member. -/
theorem ipMatches_of_empty_prefix :
    ipMatches "8.8.8.8".toList "10.0.0.0/".toList = true ∧
      declaredMatch "8.8.8.8".toList "10.0.0.0/".toList = false := by
  decide +kernel

example : ipMatches "10.9.0.1".toList " ::ffff:10.0.0.0/8 ".toList = true := by decide +kernel

end Blocks

section ClientIp

/-- Without a trusted proxy at the other end of the connection the header is not read. -/
theorem resolveClientIp_of_untrusted (req : RequestLike) {trustedProxies : List Text}
    (h : ∀ proxy ∈ trustedProxies,
      ipMatches (normalizeIp (orElse req.remoteAddress (orElse req.ip []))) proxy = false) :
    resolveClientIp req trustedProxies = normalizeIp (orElse req.remoteAddress (orElse req.ip [])) := by
  have hany : (trustedProxies.any
      (ipMatches (normalizeIp (orElse req.remoteAddress (orElse req.ip []))))) = false := by
    rw [List.any_eq_false]
    intro proxy hproxy
    simp [h proxy hproxy]
  simp [resolveClientIp, hany]

/--
A client address that is not the peer of the connection is a hop that is not a trusted proxy, and every
hop between it and the server is one.
-/
theorem resolveClientIp_spec (req : RequestLike) (trustedProxies : List Text)
    (h : resolveClientIp req trustedProxies ≠
      normalizeIp (orElse req.remoteAddress (orElse req.ip []))) :
    ∃ farther nearer : List Text,
      forwardedHops req.forwardedFor =
        some (farther ++ resolveClientIp req trustedProxies :: nearer) ∧
      (∀ proxy ∈ trustedProxies, ipMatches (resolveClientIp req trustedProxies) proxy = false) ∧
      ∀ hop ∈ nearer, ∃ proxy ∈ trustedProxies, ipMatches hop proxy = true := by
  revert h
  unfold resolveClientIp
  dsimp only
  split
  . intro h
    exact absurd rfl h
  . split
    . intro h
      exact absurd rfl h
    . split
      . intro h
        exact absurd rfl h
      . next hops hheader =>
        intro h
        cases hfound : hops.reverse.find? fun hop => !trustedProxies.any (ipMatches hop) with
        | none => simp [hfound] at h
        | some hop =>
          obtain ⟨hno, nearer, farther, heq, htrusted⟩ := List.find?_eq_some_iff_append.mp hfound
          refine ⟨farther.reverse, nearer.reverse, ?_, ?_, ?_⟩
          . rw [hheader, ← List.reverse_reverse hops, heq]
            simp
          . simpa [List.any_eq_false] using hno
          . intro other hother
            have := htrusted other (List.mem_reverse.mp hother)
            simpa [List.any_eq_true] using this

end ClientIp

end OpenWA.Net
