import Mathlib.Data.List.Basic

/-! @lib Utf16 | scheme:codec | layer:library

    Texts as JavaScript holds them: any list of UTF-16 code units, whether or not its surrogates are
    paired. `encode` writes characters, `decode` reads them back and refuses a lone surrogate. -/

namespace Utf16

/-- A JavaScript string. -/
abbrev Text := List UInt16

/-- The first unit of a pair. -/
def isHigh (c : UInt16) : Bool := decide (0xD800 ≤ c.toNat) && decide (c.toNat < 0xDC00)

/-- The second unit of a pair. -/
def isLow (c : UInt16) : Bool := decide (0xDC00 ≤ c.toNat) && decide (c.toNat < 0xE000)

/-- The units of a character. -/
def units (c : Char) : Text :=
  if c.toNat < 0x10000 then [UInt16.ofNat c.toNat]
  else
    [UInt16.ofNat (0xD800 + (c.toNat - 0x10000) / 0x400),
      UInt16.ofNat (0xDC00 + (c.toNat - 0x10000) % 0x400)]

/-- The units of a text. -/
def encode (cs : List Char) : Text := cs.flatMap units

/-- The character of a pair. -/
def pairChar (hi lo : UInt16) : Char :=
  Char.ofNat (0x10000 + (hi.toNat - 0xD800) * 0x400 + (lo.toNat - 0xDC00))

/-- The characters of a text; `none` at a lone surrogate. -/
def decode : Text → Option (List Char)
  | [] => some []
  | c :: s =>
    if isHigh c then
      match s with
      | d :: s => if isLow d then (decode s).map (pairChar c d :: ·) else none
      | [] => none
    else if isLow c then none
    else (decode s).map (Char.ofNat c.toNat :: ·)

/-- The units of a string. -/
def ofString (s : String) : Text := encode s.toList

/-- The string of a text; `none` at a lone surrogate. -/
def toString? (s : Text) : Option String := (decode s).map String.ofList

/-! ### Characters -/

variable {c : Char} {cs : List Char} {s : Text}

@[simp] theorem encode_cons (c : Char) (cs : List Char) : encode (c :: cs) = units c ++ encode cs := rfl

/-- Characters are no surrogates. -/
theorem char_range (c : Char) : c.toNat < 0xD800 ∨ 0xDFFF < c.toNat ∧ c.toNat < 0x110000 := by
  have h := c.valid
  simp only [UInt32.isValidChar, Nat.isValidChar] at h
  exact h

theorem toNat_ofNat {n : ℕ} (h : n < 0x10000) : (UInt16.ofNat n).toNat = n := by
  rw [UInt16.toNat_ofNat']
  exact Nat.mod_eq_of_lt h

theorem char_toNat {n : ℕ} (h : n < 0xD800 ∨ 0xDFFF < n ∧ n < 0x110000) : (Char.ofNat n).toNat = n := by
  have hvalid : n.isValidChar := h
  rw [Char.ofNat, dif_pos hvalid]
  rfl

theorem units_ne_nil (c : Char) : units c ≠ [] := by
  unfold units
  split <;> simp

/-- A character of one unit is not a surrogate. -/
theorem units_small (h : c.toNat < 0x10000) :
    units c = [UInt16.ofNat c.toNat] ∧ isHigh (UInt16.ofNat c.toNat) = false ∧
      isLow (UInt16.ofNat c.toNat) = false := by
  have hrange := char_range c
  refine ⟨if_pos h, ?_, ?_⟩
  · simp only [isHigh, toNat_ofNat h, Bool.and_eq_false_iff, decide_eq_false_iff_not]
    omega
  · simp only [isLow, toNat_ofNat h, Bool.and_eq_false_iff, decide_eq_false_iff_not]
    omega

/-- Any other character is a pair of surrogates. -/
theorem units_large (h : ¬c.toNat < 0x10000) : ∃ hi lo, units c = [hi, lo] ∧ isHigh hi = true ∧
    isLow lo = true ∧ pairChar hi lo = c := by
  have hrange := char_range c
  have hhi : 0xD800 + (c.toNat - 0x10000) / 0x400 < 0x10000 := by omega
  have hlo : 0xDC00 + (c.toNat - 0x10000) % 0x400 < 0x10000 := by omega
  refine ⟨_, _, if_neg h, ?_, ?_, ?_⟩
  · simp only [isHigh, toNat_ofNat hhi, Bool.and_eq_true, decide_eq_true_eq]
    omega
  · simp only [isLow, toNat_ofNat hlo, Bool.and_eq_true, decide_eq_true_eq]
    omega
  · unfold pairChar
    rw [toNat_ofNat hhi, toNat_ofNat hlo]
    have hsum : 0x10000 + (0xD800 + (c.toNat - 0x10000) / 0x400 - 0xD800) * 0x400 +
        (0xDC00 + (c.toNat - 0x10000) % 0x400 - 0xDC00) = c.toNat := by omega
    rw [hsum, Char.ofNat_toNat]

/-- A pair of surrogates is one character. -/
theorem units_pairChar {hi lo : UInt16} (hh : isHigh hi = true) (hl : isLow lo = true) :
    units (pairChar hi lo) = [hi, lo] := by
  simp only [isHigh, isLow, Bool.and_eq_true, decide_eq_true_eq] at hh hl
  have hn : (pairChar hi lo).toNat =
      0x10000 + (hi.toNat - 0xD800) * 0x400 + (lo.toNat - 0xDC00) := char_toNat (by omega)
  unfold units
  rw [hn, if_neg (by omega)]
  have hhi : 0xD800 + (0x10000 + (hi.toNat - 0xD800) * 0x400 + (lo.toNat - 0xDC00) - 0x10000) / 0x400 =
      hi.toNat := by omega
  have hlo : 0xDC00 + (0x10000 + (hi.toNat - 0xD800) * 0x400 + (lo.toNat - 0xDC00) - 0x10000) % 0x400 =
      lo.toNat := by omega
  rw [hhi, hlo, UInt16.ofNat_toNat, UInt16.ofNat_toNat]

theorem units_unit {u : UInt16} (hh : isHigh u = false) (hl : isLow u = false) :
    units (Char.ofNat u.toNat) = [u] := by
  have hlt := u.toNat_lt
  have hn : (Char.ofNat u.toNat).toNat = u.toNat := by
    refine char_toNat ?_
    simp only [isHigh, isLow, Bool.and_eq_false_iff, decide_eq_false_iff_not] at hh hl
    omega
  unfold units
  rw [hn, if_pos (by omega), UInt16.ofNat_toNat]

/-! ### Texts -/

theorem decode_unit {u : UInt16} (hh : isHigh u = false) (hl : isLow u = false) (s : Text) :
    decode (u :: s) = (decode s).map (Char.ofNat u.toNat :: ·) := by
  rw [decode.eq_def]
  simp [hh, hl]

theorem decode_pair {hi lo : UInt16} (hh : isHigh hi = true) (hl : isLow lo = true) (s : Text) :
    decode (hi :: lo :: s) = (decode s).map (pairChar hi lo :: ·) := by
  rw [decode]
  simp [hh, hl]

theorem decode_encode (cs : List Char) : decode (encode cs) = some cs := by
  induction cs with
  | nil => rfl
  | cons c cs ih =>
    rw [encode_cons]
    by_cases h : c.toNat < 0x10000
    · obtain ⟨hunits, hhigh, hlow⟩ := units_small h
      rw [hunits, List.singleton_append, decode_unit hhigh hlow, ih, toNat_ofNat h, Char.ofNat_toNat]
      rfl
    · obtain ⟨hi, lo, hunits, hhigh, hlow, hpair⟩ := units_large h
      rw [hunits, List.cons_append, List.singleton_append, decode_pair hhigh hlow, ih, hpair]
      rfl

theorem encode_decode (h : decode s = some cs) : encode cs = s := by
  fun_induction decode s generalizing cs with
  | case1 =>
    cases h
    rfl
  | case2 c hhigh d s hlow ih =>
    obtain ⟨ds, hd, rfl⟩ := Option.map_eq_some_iff.1 h
    rw [encode_cons, units_pairChar hhigh hlow, ih hd]
    rfl
  | case6 c s hhigh hlow ih =>
    obtain ⟨ds, hd, rfl⟩ := Option.map_eq_some_iff.1 h
    rw [Bool.not_eq_true] at hhigh hlow
    rw [encode_cons, units_unit hhigh hlow, ih hd]
    rfl
  | _ => cases h

@[simp] theorem toString?_ofString (s : String) : toString? (ofString s) = some s := by
  rw [toString?, ofString, decode_encode, Option.map_some, String.ofList_toList]

theorem ofString_toString? {x : String} (h : toString? s = some x) : ofString x = s := by
  obtain ⟨cs, hcs, rfl⟩ := Option.map_eq_some_iff.1 h
  rw [ofString, String.toList_ofList, encode_decode hcs]

@[simp] theorem ofString_inj {x y : String} : ofString x = ofString y ↔ x = y := by
  refine ⟨fun h => ?_, congrArg ofString⟩
  have hxy := congrArg toString? h
  rwa [toString?_ofString, toString?_ofString, Option.some.injEq] at hxy

end Utf16
