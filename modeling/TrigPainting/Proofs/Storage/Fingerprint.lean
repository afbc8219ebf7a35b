import Mathlib.Tactic.Ring
import TrigPainting.Storage.Fingerprint

/-!
# What fingerprints tell

The number of a text is a polynomial in 25 modulo `2 ^ 64`. Since 25 is odd, multiplying by it
loses nothing, so what has made two numbers different is never made up for by what both texts go
on with. A fingerprint shows the digits of the number one after the other and starts again at
their end, and as it has all of them from the length 16 on, it shows the number whole.

A fingerprint is computed if its digits, repeated once more than they fit into its length, make
no longer text than there can be. That is so for all lengths but those that come close to the
limit of texts or are beyond it.

## Main definitions

- `polynomial` — the number of a text before it is reduced
- `hexDigits` — the digits of hexadecimal numerals

## Main statements

- `toNat_hash` — the closed form of the number
- `getElem?_toDigits` — the digits of a numeral by its value
- `getElem?_cycle` — the characters of what is repeated and cut
- `computeFingerprint_eq` — what computing a fingerprint comes to
- `fingerprint_shape` — what fingerprints look like
- `hash_separates` — when numbers and fingerprints are different
-/

namespace TrigPainting.Storage

/-- The polynomial in 25 whose coefficients are the number that hashing starts from and then the
numbers of the characters. -/
def polynomial (text : List Char) : ℕ :=
  0x666 * 25 ^ text.length +
    (text.mapIdx fun i c => c.toNat * 25 ^ (text.length - (i + 1))).sum

/-- The digits of hexadecimal numerals, in the order of their values. -/
def hexDigits : List Char :=
  "0123456789abcdef".toList

variable {text chars front back : List Char} {h : UInt64} {b k n length : ℕ}

-- ════════════════════════════════════════════════════════════════════════
-- The number of a text
-- ════════════════════════════════════════════════════════════════════════

theorem toNat_hashFrom (h : UInt64) (text : List Char) :
    (hashFrom h text).toNat =
      (h.toNat * 25 ^ text.length +
        (text.mapIdx fun i c => c.toNat * 25 ^ (text.length - (i + 1))).sum) % 2 ^ 64 := by
  induction text generalizing h with
  | nil => simp [hashFrom, Nat.mod_eq_of_lt h.toNat_lt]
  | cons c rest ih =>
    have hstep : (h * 25 + c.val.toUInt64).toNat = (h.toNat * 25 + c.toNat) % 2 ^ 64 := by
      simp [UInt64.toNat_add, UInt64.toNat_mul]
    have hcons : hashFrom h (c :: rest) = hashFrom (h * 25 + c.val.toUInt64) rest := rfl
    rw [hcons, ih, hstep, List.mapIdx_cons]
    simp only [List.length_cons, List.sum_cons, Nat.add_sub_add_right, Nat.sub_zero]
    rw [Nat.add_mod, Nat.mod_mul_mod, ← Nat.add_mod]
    ring_nf

/-- **The closed form** of the number of a text. -/
theorem toNat_hash (text : List Char) : (hash text).toNat = polynomial text % 2 ^ 64 :=
  toNat_hashFrom hashSeed text

/-- 25 is odd: it has an inverse modulo `2 ^ 64`. -/
theorem mul_25_injective {g h : UInt64} (heq : g * 25 = h * 25) : g = h := by
  have hinverse : ∀ x : UInt64, x * 25 * 0x8f5c28f5c28f5c29 = x := by
    intro x
    rw [UInt64.mul_assoc]
    exact UInt64.mul_one x
  rw [← hinverse g, heq, hinverse]

theorem hashFrom_injective (text : List Char) {g h : UInt64}
    (heq : hashFrom g text = hashFrom h text) : g = h := by
  induction text generalizing g h with
  | nil => exact heq
  | cons c rest ih => exact mul_25_injective ((UInt64.add_left_inj _).mp (ih heq))

theorem hash_append_right_inj : hash (front ++ text) = hash (back ++ text) ↔
    hash front = hash back := by
  rw [hash_append, hash_append]
  refine ⟨hashFrom_injective text, fun heq => ?_⟩
  rw [heq]

theorem hash_append_singleton_inj {c d : Char} :
    hash (front ++ [c]) = hash (front ++ [d]) ↔ c = d := by
  rw [hash_append, hash_append]
  refine ⟨fun heq => ?_, fun heq => by rw [heq]⟩
  have hchar : c.val.toUInt64 = d.val.toUInt64 := (UInt64.add_right_inj _).mp heq
  exact Char.ext (UInt32.toUInt64_inj.mp hchar)

-- ════════════════════════════════════════════════════════════════════════
-- Numerals
-- ════════════════════════════════════════════════════════════════════════

/-- **The digits of a numeral** by its value, where the last digit is that of the units. -/
theorem getElem?_toDigits (hb : 1 < b) (hk : k < (Nat.toDigits b n).length) :
    (Nat.toDigits b n)[k]? =
      some (n / b ^ ((Nat.toDigits b n).length - (k + 1)) % b).digitChar := by
  induction n using Nat.base_induction b hb generalizing k with
  | single n hn =>
    rw [Nat.toDigits_of_lt_base hn] at hk ⊢
    obtain rfl : k = 0 := by simpa using hk
    simp [Nat.mod_eq_of_lt hn]
  | digit n d hd hn ih =>
    have hdigits : Nat.toDigits b (b * n + d) = Nat.toDigits b n ++ [d.digitChar] := by
      rw [← Nat.toDigits_append_toDigits hb hn hd, Nat.toDigits_of_lt_base hd]
    have hfront : (b * n + d) / b = n := by
      rw [Nat.mul_add_div (by omega), Nat.div_eq_of_lt hd, Nat.add_zero]
    rw [hdigits] at hk ⊢
    rw [List.length_append, List.length_singleton] at hk ⊢
    by_cases hlast : k = (Nat.toDigits b n).length
    · subst hlast
      simp [Nat.mod_eq_of_lt hd]
    · have hlt : k < (Nat.toDigits b n).length := by omega
      have hplace : (Nat.toDigits b n).length + 1 - (k + 1) =
          (Nat.toDigits b n).length - (k + 1) + 1 := by omega
      rw [List.getElem?_append_left hlt, ih hlt, hplace, Nat.pow_succ', ← Nat.div_div_eq_div_mul,
        hfront]

theorem getElem?_hexDigits {d : ℕ} (hd : d < 16) : hexDigits[d]? = some d.digitChar := by
  revert d
  decide

/-- The value of a numeral, digit by digit. -/
theorem foldl_toDigits (n : ℕ) :
    (Nat.toDigits 16 n).foldl (fun value c => 16 * value + hexDigits.idxOf c) 0 = n := by
  have hvalue : ∀ d < 16, hexDigits.idxOf d.digitChar = d := by decide
  induction n using Nat.base_induction 16 (by decide) with
  | single n hn => simp [Nat.toDigits_of_lt_base hn, hvalue n hn]
  | digit n d hd hn ih =>
    rw [← Nat.toDigits_append_toDigits (by decide) hn hd, Nat.toDigits_of_lt_base hd,
      List.foldl_append, ih]
    simp [hvalue d hd]

theorem numeral_injective {g h : UInt64} (heq : numeral g = numeral h) : g = h := by
  have hvalues := congrArg (List.foldl (fun value c => 16 * value + hexDigits.idxOf c) 0) heq
  rw [numeral, numeral, foldl_toDigits, foldl_toDigits] at hvalues
  exact UInt64.toNat_inj.mp hvalues

/-- A numeral has no more digits than its number needs, and one for zero. -/
theorem pow_length_numeral_le (hne : h.toNat ≠ 0) : 16 ^ ((numeral h).length - 1) ≤ h.toNat := by
  by_cases hone : (numeral h).length = 1
  · rw [hone]
    exact Nat.one_le_iff_ne_zero.mpr hne
  · have hpos := List.length_pos_iff.mpr (numeral_ne_nil h)
    have hprevious : 0 < (numeral h).length - 1 := by omega
    have hshort : ¬ (numeral h).length ≤ (numeral h).length - 1 := by omega
    exact not_lt.mp (mt (Nat.length_toDigits_le_iff (by decide) hprevious).mpr hshort)

-- ════════════════════════════════════════════════════════════════════════
-- Repeating and cutting
-- ════════════════════════════════════════════════════════════════════════

theorem length_cycle (hchars : chars ≠ []) (length : ℕ) : (cycle chars length).length = length :=
  List.length_take_of_le (le_length_repeated hchars length)

theorem getElem?_flatten_replicate (hk : k < n * chars.length) :
    (List.replicate n chars).flatten[k]? = chars[k % chars.length]? := by
  induction n generalizing k with
  | zero => omega
  | succ n ih =>
    rw [List.replicate_succ, List.flatten_cons]
    by_cases hfirst : k < chars.length
    · rw [List.getElem?_append_left hfirst, Nat.mod_eq_of_lt hfirst]
    · have hle := Nat.le_of_not_lt hfirst
      rw [Nat.succ_mul] at hk
      rw [List.getElem?_append_right hle, ih (by omega), ← Nat.mod_eq_sub_mod hle]

/-- **The characters of what is repeated and cut** start over at the end. -/
theorem getElem?_cycle (hchars : chars ≠ []) (hk : k < length) :
    (cycle chars length)[k]? = chars[k % chars.length]? := by
  have henough := le_length_repeated hchars length
  rw [length_repeated] at henough
  rw [cycle, repeated, List.getElem?_take_of_lt hk,
    getElem?_flatten_replicate (hk.trans_le henough)]

theorem cycle_prefix_cycle (hchars : chars ≠ []) {longer : ℕ} (hle : length ≤ longer) :
    cycle chars length <+: cycle chars longer := by
  rw [List.prefix_iff_getElem?]
  intro k hk
  rw [← List.getElem?_eq_getElem hk]
  rw [length_cycle hchars] at hk
  rw [getElem?_cycle hchars hk, getElem?_cycle hchars (hk.trans_le hle)]

/-- What is cut at the end of the characters or later shows all of them. -/
theorem take_cycle (hle : chars.length ≤ length) :
    (cycle chars length).take chars.length = chars := by
  rw [cycle, repeated, List.take_take, Nat.min_eq_left hle, List.replicate_succ,
    List.flatten_cons, List.take_left]

-- ════════════════════════════════════════════════════════════════════════
-- Fingerprints
-- ════════════════════════════════════════════════════════════════════════

theorem length_fingerprint (htext : text ≠ []) (length : ℕ) :
    (fingerprint text length).length = length := by
  rw [fingerprint_of_ne_nil htext, length_cycle (numeral_ne_nil _)]

theorem getElem?_fingerprint (htext : text ≠ []) (hk : k < length) :
    (fingerprint text length)[k]? =
      hexDigits[(hash text).toNat / 16 ^ ((numeral (hash text)).length -
        (k % (numeral (hash text)).length + 1)) % 16]? := by
  have hdigits := numeral_ne_nil (hash text)
  have hwithin := Nat.mod_lt k (List.length_pos_iff.mpr hdigits)
  rw [fingerprint_of_ne_nil htext, getElem?_cycle hdigits hk,
    getElem?_hexDigits (Nat.mod_lt _ (by decide))]
  exact getElem?_toDigits (by decide) hwithin

theorem mem_hexDigits_of_mem_fingerprint {c : Char} (hc : c ∈ fingerprint text length) :
    c ∈ hexDigits := by
  have htext : text ≠ [] := by
    rintro rfl
    cases hc
  obtain ⟨k, hk, rfl⟩ := List.mem_iff_getElem.mp hc
  have hdigit := getElem?_fingerprint htext (length_fingerprint htext length ▸ hk)
  rw [List.getElem?_eq_getElem hk] at hdigit
  exact List.mem_of_getElem? hdigit.symm

/-- The number of repetitions is reduced for the greatest word and numerals of one digit only. -/
theorem repetitions_lt {m : ℕ} (hm : 0 < m) (length : UInt64)
    (hwraps : ¬ (m = 1 ∧ length.toNat = 2 ^ 64 - 1)) : length.toNat / m + 1 < 2 ^ 64 := by
  have hword := length.toNat_lt
  by_cases hone : m = 1
  · rw [hone, Nat.div_one]
    omega
  · have htwo : 2 ≤ m := by omega
    have hhalf : length.toNat / m ≤ length.toNat / 2 := Nat.div_le_div_left htwo (by decide)
    omega

/-- **What computing a fingerprint comes to** for a text that is not empty. -/
theorem computeFingerprint_eq (htext : text ≠ []) (length : UInt64) :
    let m := (numeral (hash text)).length
    computeFingerprint text length =
      if m * (length.toNat / m + 1) ≤ textLimit then .ok (fingerprint text length.toNat)
      else if m = 1 ∧ length.toNat = 2 ^ 64 - 1 then .error .slice
      else .error .capacity := by
  intro m
  by_cases hfits : m * (length.toNat / m + 1) ≤ textLimit
  · rw [if_pos hfits]
    exact computeFingerprint_of_le htext hfits
  have htimes : (length / (numeral (hash text)).length.toUInt64 + 1).toNat =
      (length.toNat / (numeral (hash text)).length + 1) % 2 ^ 64 :=
    toNat_repetitions (hash text) length
  rw [if_neg hfits, computeFingerprint_of_ne_nil htext]
  by_cases hwraps : m = 1 ∧ length.toNat = 2 ^ 64 - 1
  · -- No repetition is left, and the empty text is cut.
    obtain ⟨hone, hgreatest⟩ := id hwraps
    simp only [m] at hone
    rw [hone, hgreatest] at htimes
    rw [if_pos hwraps, hone, repeatText_eq_ok (by rw [htimes]; exact Nat.zero_le _), htimes]
    exact cutText_eq_error (by simp [hgreatest])
  · have hword := repetitions_lt (length_numeral_pos (hash text)) length hwraps
    rw [Nat.mod_eq_of_lt hword] at htimes
    rw [if_neg hwraps, repeatText_eq_error (by rw [htimes]; exact not_le.mp hfits)]
    rfl

theorem computeFingerprint_eq_ok_iff {tag : List Char} (htext : text ≠ []) {length : UInt64} :
    computeFingerprint text length = .ok tag ↔
      (numeral (hash text)).length * (length.toNat / (numeral (hash text)).length + 1) ≤
        textLimit ∧ fingerprint text length.toNat = tag := by
  rw [computeFingerprint_eq htext]
  split
  · rename_i hfits
    simp [hfits]
  · rename_i hfits
    split <;> simp [hfits]

/-- **What fingerprints look like**: computing one has no fault as long as the text that it is cut
from is no longer than texts can be. This text is always long enough, and its characters are the
digits of the number of the text, without leading zeros, over and over. -/
theorem fingerprint_shape :
    (∀ text : List Char, text ≠ [] →
      let h := polynomial text % 2 ^ 64
      let m := (numeral (hash text)).length
      (0 < m ∧ m ≤ 16 ∧ h < 16 ^ m ∧ (h = 0 → m = 1) ∧ (h ≠ 0 → 16 ^ (m - 1) ≤ h)) ∧
      ∀ length : UInt64,
        computeFingerprint text length =
          (if m * (length.toNat / m + 1) ≤ textLimit then .ok (fingerprint text length.toNat)
          else if m = 1 ∧ length.toNat = 2 ^ 64 - 1 then .error .slice
          else .error .capacity) ∧
        (length.toNat + 16 ≤ textLimit → ∃ tag, computeFingerprint text length = .ok tag) ∧
        ∀ tag, computeFingerprint text length = .ok tag →
          length.toNat ≤ (repeated (numeral (hash text)) length.toNat).length ∧
          tag = (repeated (numeral (hash text)) length.toNat).take length.toNat ∧
          tag.length = length.toNat ∧
          (∀ k < length.toNat, tag[k]? = hexDigits[h / 16 ^ (m - (k % m + 1)) % 16]?) ∧
          (∀ c ∈ tag, c ∈ hexDigits) ∧
          ∀ longer ≥ length, ∀ other, computeFingerprint text longer = .ok other →
            tag <+: other) ∧
    (∀ length, computeFingerprint [] length = .ok []) ∧
    ∀ p : Palette, computeFingerprint p.tagText 25 = .ok p.tag.toList ∧ p.tag.length = 25 := by
  refine ⟨fun text htext => ?_, fun length => rfl, fun p => ⟨?_, ?_⟩⟩
  · intro h m
    have hvalue : (hash text).toNat = h := toNat_hash text
    have hdigits := numeral_ne_nil (hash text)
    have hpos : 0 < m := length_numeral_pos (hash text)
    have hle : m ≤ 16 := length_numeral_le (hash text)
    refine ⟨⟨hpos, hle, ?_, fun hzero => ?_, fun hne => ?_⟩, fun length =>
      ⟨computeFingerprint_eq htext length, fun hroom => ?_, fun tag htag => ?_⟩⟩
    · rw [← hvalue]
      exact (Nat.length_toDigits_le_iff (by decide) hpos).mp le_rfl
    · rw [← hvalue] at hzero
      simp [m, numeral, hzero]
    · rw [← hvalue] at hne ⊢
      exact pow_length_numeral_le hne
    · have hdiv := Nat.mul_div_le length.toNat m
      have hfits : m * (length.toNat / m + 1) ≤ textLimit := by
        rw [Nat.mul_add, Nat.mul_one]
        omega
      exact ⟨_, computeFingerprint_of_le htext hfits⟩
    · obtain ⟨-, rfl⟩ := (computeFingerprint_eq_ok_iff htext).mp htag
      refine ⟨le_length_repeated hdigits _, fingerprint_of_ne_nil htext _,
        length_fingerprint htext _, fun k hk => ?_, fun c => mem_hexDigits_of_mem_fingerprint, ?_⟩
      · rw [getElem?_fingerprint htext hk, hvalue]
      · intro longer hlonger other hother
        obtain ⟨-, rfl⟩ := (computeFingerprint_eq_ok_iff htext).mp hother
        rw [fingerprint_of_ne_nil htext, fingerprint_of_ne_nil htext]
        exact cycle_prefix_cycle hdigits (UInt64.le_iff_toNat_le.mp hlonger)
  · rw [p.tag_eq, String.toList_ofList]
    exact p.computeFingerprint_tagText
  · rw [p.tag_eq, String.length_ofList]
    exact length_fingerprint p.tagText_ne_nil tagLength

/-- A text whose polynomial is reduced, and a digit after the end of its numeral. -/
theorem fingerprint_shape_of_three_channels :
    let text := "(x)_(y)_(pi)".toList
    2 ^ 64 ≤ polynomial text ∧ ∃ tag longer, computeFingerprint text 25 = .ok tag ∧
      computeFingerprint text 40 = .ok longer ∧ tag.length = 25 ∧ tag[17]? = some 'c' ∧
        tag <+: longer := by
  intro text
  obtain ⟨hshape, -, -⟩ := fingerprint_shape
  obtain ⟨-, hcomputed⟩ := hshape text (by decide)
  obtain ⟨-, hreturns, htag⟩ := hcomputed 25
  obtain ⟨tag, hfirst⟩ := hreturns (by decide)
  obtain ⟨longer, hsecond⟩ := (hcomputed 40).2.1 (by decide)
  obtain ⟨-, -, hlength, hdigits, -, hprefix⟩ := htag tag hfirst
  have hdigit : tag[17]? = some 'c' := (hdigits 17 (by decide)).trans (by decide +kernel)
  exact ⟨by decide +kernel, tag, longer, hfirst, hsecond, hlength, hdigit,
    hprefix 40 (by decide) longer hsecond⟩

/-- The number of this text is zero, so the greatest word leaves no repetition of its digit. -/
theorem computeFingerprint_greatest_word_of_zero :
    let text := "(4->50@*?;-69)5".toList
    hash text = 0 ∧ computeFingerprint text 0xffffffffffffffff = .error .slice ∧
      ¬ ∃ tag, computeFingerprint text 0xffffffffffffffff = .ok tag ∧
        tag.length = 0xffffffffffffffff := by
  intro text
  have hzero : hash text = 0 := by decide +kernel
  have hslice : computeFingerprint text 0xffffffffffffffff = .error .slice := by
    rw [computeFingerprint_eq (by decide), hzero]
    rfl
  refine ⟨hzero, hslice, ?_⟩
  rintro ⟨tag, htag, -⟩
  rw [hslice] at htag
  cases htag

-- ════════════════════════════════════════════════════════════════════════
-- Texts that differ
-- ════════════════════════════════════════════════════════════════════════

/-- Texts of one length that differ at a single place are the same before and after it. -/
theorem exists_split_of_existsUnique_ne {a b : List Char} (hlength : a.length = b.length)
    (hplace : ∃! i : ℕ, a[i]? ≠ b[i]?) :
    ∃ front c d back, c ≠ d ∧ a = front ++ c :: back ∧ b = front ++ d :: back := by
  obtain ⟨i, hne, hunique⟩ := hplace
  have hsame : ∀ j, j ≠ i → a[j]? = b[j]? := fun j hj => not_not.mp (mt (hunique j) hj)
  have hia : i < a.length := by
    by_contra hout
    rw [List.getElem?_eq_none (by omega), List.getElem?_eq_none (by omega)] at hne
    exact hne rfl
  have hib : i < b.length := hlength ▸ hia
  have hfront : a.take i = b.take i := by
    apply List.ext_getElem?
    intro j
    by_cases hj : j < i
    · rw [List.getElem?_take_of_lt hj, List.getElem?_take_of_lt hj, hsame j (by omega)]
    · rw [List.getElem?_take_eq_none (by omega), List.getElem?_take_eq_none (by omega)]
  have hback : a.drop (i + 1) = b.drop (i + 1) := by
    apply List.ext_getElem?
    intro j
    rw [List.getElem?_drop, List.getElem?_drop, hsame _ (by omega)]
  refine ⟨a.take i, a[i], b[i], a.drop (i + 1), ?_, ?_, ?_⟩
  · rwa [List.getElem?_eq_getElem hia, List.getElem?_eq_getElem hib, ne_eq,
      Option.some.injEq] at hne
  · rw [List.getElem_cons_drop, List.take_append_drop]
  · rw [hfront, hback, List.getElem_cons_drop, List.take_append_drop]

/-- A fingerprint of 16 characters or more shows the number of its text, if it is known how many
digits that has. -/
theorem hash_eq_of_fingerprint_eq {a b : List Char} (ha : a ≠ []) (hb : b ≠ [])
    (hlength : 16 ≤ length) (hdigits : (numeral (hash a)).length = (numeral (hash b)).length)
    (heq : fingerprint a length = fingerprint b length) : hash a = hash b := by
  rw [fingerprint_of_ne_nil ha, fingerprint_of_ne_nil hb] at heq
  have hshowsA := take_cycle ((length_numeral_le (hash a)).trans hlength)
  have hshowsB := take_cycle ((length_numeral_le (hash b)).trans hlength)
  rw [heq, hdigits, hshowsB] at hshowsA
  exact numeral_injective hshowsA.symm

/-- **Nothing is absorbed**: texts go on having the same number or different ones, whatever they
both go on with. So a change of a single character changes the number, and it changes every
fingerprint of 16 characters or more unless the two numbers have numerals of different lengths.
The two are computed for the same lengths then. -/
theorem hash_separates :
    (∀ a b s : List Char, hash (a ++ s) = hash (b ++ s) ↔ hash a = hash b) ∧
    ∀ a b : List Char, a.length = b.length → (∃! i : ℕ, a[i]? ≠ b[i]?) →
      hash a ≠ hash b ∧
        ((numeral (hash a)).length = (numeral (hash b)).length →
          (∀ length ≥ 16, fingerprint a length ≠ fingerprint b length) ∧
          ∀ length : UInt64,
            ((∃ tag, computeFingerprint a length = .ok tag) ↔
              ∃ tag, computeFingerprint b length = .ok tag) ∧
            (16 ≤ length → ∀ tag other, computeFingerprint a length = .ok tag →
              computeFingerprint b length = .ok other → tag ≠ other)) := by
  refine ⟨fun a b s => hash_append_right_inj, fun a b hlength hplace => ?_⟩
  obtain ⟨front, c, d, back, hne, rfl, rfl⟩ := exists_split_of_existsUnique_ne hlength hplace
  have ha : front ++ c :: back ≠ [] := by simp
  have hb : front ++ d :: back ≠ [] := by simp
  have hhash : hash (front ++ c :: back) ≠ hash (front ++ d :: back) := by
    intro heq
    rw [List.append_cons, List.append_cons front d, hash_append_right_inj,
      hash_append_singleton_inj] at heq
    exact hne heq
  refine ⟨hhash, fun hdigits => ?_⟩
  have hdiffer : ∀ length ≥ 16,
      fingerprint (front ++ c :: back) length ≠ fingerprint (front ++ d :: back) length :=
    fun length hle heq => hhash (hash_eq_of_fingerprint_eq ha hb hle hdigits heq)
  refine ⟨hdiffer, fun length => ⟨?_, fun hle tag other htag hother => ?_⟩⟩
  · simp only [computeFingerprint_eq_ok_iff ha, computeFingerprint_eq_ok_iff hb,
      exists_and_left, exists_eq', and_true, hdigits]
  · obtain ⟨-, rfl⟩ := (computeFingerprint_eq_ok_iff ha).mp htag
    obtain ⟨-, rfl⟩ := (computeFingerprint_eq_ok_iff hb).mp hother
    exact hdiffer length.toNat (UInt64.le_iff_toNat_le.mp hle)

/-- Two palettes that differ in the last channel. -/
theorem hash_separates_last_channel :
    let a := "(x)_(y)_(x)".toList
    let b := "(x)_(y)_(y)".toList
    a.length = b.length ∧ (∃! i : ℕ, a[i]? ≠ b[i]?) ∧
      (numeral (hash a)).length = (numeral (hash b)).length ∧ hash a ≠ hash b ∧
      fingerprint a tagLength ≠ fingerprint b tagLength ∧
      ∃ tag other, computeFingerprint a 25 = .ok tag ∧ computeFingerprint b 25 = .ok other ∧
        tag ≠ other := by
  intro a b
  have hwithin : ∀ i < 11, a[i]? ≠ b[i]? → i = 9 := by decide
  have hplace : ∃! i : ℕ, a[i]? ≠ b[i]? := by
    refine ⟨9, by decide, fun i hne => ?_⟩
    by_cases hi : i < 11
    · exact hwithin i hi hne
    · have ha : a.length ≤ i := Nat.le_of_not_lt hi
      have hb : b.length ≤ i := Nat.le_of_not_lt hi
      have hnone : a[i]? = b[i]? :=
        (List.getElem?_eq_none ha).trans (List.getElem?_eq_none hb).symm
      exact absurd hnone hne
  have hlength : a.length = b.length := by decide
  have hdigits : (numeral (hash a)).length = (numeral (hash b)).length := by decide +kernel
  obtain ⟨hhash, hdiffer⟩ := hash_separates.2 a b hlength hplace
  obtain ⟨hfingerprint, hcomputed⟩ := hdiffer hdigits
  obtain ⟨hboth, htags⟩ := hcomputed 25
  obtain ⟨tag, htag⟩ : ∃ tag, computeFingerprint a 25 = .ok tag :=
    ⟨_, computeFingerprint_of_le (by decide) (by decide +kernel)⟩
  obtain ⟨other, hother⟩ := hboth.mp ⟨tag, htag⟩
  exact ⟨hlength, hplace, hdigits, hhash, hfingerprint tagLength (by decide), tag, other, htag,
    hother, htags (by decide) tag other htag hother⟩

end TrigPainting.Storage
