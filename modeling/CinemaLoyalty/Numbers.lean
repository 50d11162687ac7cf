import CinemaLoyalty.Achievements
import CinemaLoyalty.Lib.Strip
import Mathlib.Data.List.Induction
import Mathlib.Data.List.TakeWhile
import Mathlib.Tactic.Linarith
import Mathlib.Tactic.NormNum
import Mathlib.Tactic.Ring

/-! @svc Numbers | layer:property | source:src/config/env.schema.ts (integer), src/achievements/schemas/achievement-criteria.schemas.ts

    Integers of at most 53 bits are numbers of JavaScript: rounding to the nearest double leaves them
    as they are, any other number stays between the integers around it (`ofRat_between`), and a text
    of decimal digits is read as the number it writes. -/

namespace CinemaLoyalty

/-- The last place of a number of at most 53 bits is no larger than one. -/
theorem scaled_natCast {m k : ℕ} (hk : k ≤ 52) :
    (m : ℚ) / 2 ^ ((k : ℤ) - 52) = ((m * 2 ^ (52 - k) : ℕ) : ℚ) := by
  have hexp : ((52 - k : ℕ) : ℤ) = 52 - (k : ℤ) := by omega
  rw [div_eq_mul_inv, ← zpow_neg, neg_sub, ← hexp, zpow_natCast]
  push_cast
  rfl

/-- Integers below `2 ^ 53` are doubles. -/
theorem ofRat_int {n : ℤ} (h : |n| < 2 ^ 53) : JsNumber.ofRat n = .fin n := by
  unfold JsNumber.ofRat
  by_cases hzero : n = 0
  · subst hzero
    simp
  rw [if_neg (by exact_mod_cast hzero)]
  obtain ⟨m, hm⟩ : ∃ m : ℕ, |n| = (m : ℤ) := ⟨n.natAbs, Int.abs_eq_natAbs n⟩
  have habs : |(n : ℚ)| = (m : ℚ) := by
    rw [← Int.cast_abs, hm, Int.cast_natCast]
  have hlt : m < 2 ^ 53 := by
    rw [hm] at h
    exact_mod_cast h
  have hpos : m ≠ 0 := by
    rintro rfl
    exact hzero (abs_eq_zero.1 hm)
  have hlog : Nat.log 2 m ≤ 52 := Nat.lt_succ_iff.1 (Nat.log_lt_of_lt_pow hpos hlt)
  have hplace : max (Int.log 2 (m : ℚ)) (-1022) = ((Nat.log 2 m : ℕ) : ℤ) := by
    rw [Int.log_natCast]
    exact max_eq_left (by omega)
  have hscaled := scaled_natCast (m := m) hlog
  have hback : ((m * 2 ^ (52 - Nat.log 2 m) : ℕ) : ℚ) * 2 ^ (((Nat.log 2 m : ℕ) : ℤ) - 52) = m := by
    rw [← hscaled, div_mul_cancel₀]
    exact zpow_ne_zero _ (by norm_num)
  have hsmall : ¬(2 : ℚ) ^ 1024 ≤ m := by
    have hbound : (m : ℚ) < 2 ^ 53 := by exact_mod_cast hlt
    have hrange : (2 : ℚ) ^ 53 ≤ 2 ^ 1024 := pow_le_pow_right₀ (by norm_num) (by norm_num)
    exact not_le.2 (hbound.trans_le hrange)
  have hsign : (if (n : ℚ) < 0 then -(m : ℚ) else m) = n := by
    rw [← habs]
    split
    · rename_i hneg
      rw [abs_of_neg hneg, neg_neg]
    · rename_i hnonneg
      exact abs_of_nonneg (not_lt.1 hnonneg)
  simp only [habs, hplace, hscaled, Int.floor_natCast]
  simp only [Int.cast_natCast, sub_self, one_div, inv_pos, Nat.ofNat_pos, decide_true, Bool.true_or,
    if_true, hback, if_neg hsmall, hsign]

/-- The last place of the double nearest to a positive number. -/
def lastPlace (q : ℚ) : ℚ := 2 ^ (max (Int.log 2 q) (-1022) - 52)

theorem lastPlace_pos (q : ℚ) : 0 < lastPlace q := zpow_pos (by norm_num) _

/-- A positive number is rounded to one of the two multiples of its last place around it. -/
theorem ofRat_pos {q : ℚ} (hq : 0 < q) :
    ∃ n : ℤ, (n = ⌊q / lastPlace q⌋ ∨ n = ⌈q / lastPlace q⌉) ∧ JsNumber.ofRat q =
      if 2 ^ 1024 ≤ n * lastPlace q then .inf false else .fin (n * lastPlace q) := by
  unfold JsNumber.ofRat
  rw [if_neg hq.ne', abs_of_pos hq]
  simp only [not_lt.2 hq.le, if_false, decide_false]
  refine ⟨_, ?_, rfl⟩
  change (if _ then ⌊q / lastPlace q⌋ else ⌊q / lastPlace q⌋ + 1) = _ ∨
    (if _ then ⌊q / lastPlace q⌋ else ⌊q / lastPlace q⌋ + 1) = _
  split
  · exact .inl rfl
  · rename_i hup
    simp only [Bool.or_eq_true, decide_eq_true_eq, not_or, not_lt] at hup
    have hhalf : 1 / 2 ≤ q / lastPlace q - ⌊q / lastPlace q⌋ := hup.1
    refine .inr (Int.ceil_eq_iff.2 ⟨?_, ?_⟩).symm
    · push_cast
      linarith
    · push_cast
      exact (Int.lt_floor_add_one _).le

/-- A number that is not negative is rounded to one that is not negative. -/
theorem ofRat_nonneg {q r : ℚ} (hq : 0 ≤ q) (h : JsNumber.ofRat q = .fin r) : 0 ≤ r := by
  rcases hq.eq_or_lt with rfl | hq
  · cases h
    exact le_refl 0
  obtain ⟨n, hn, hround⟩ := ofRat_pos hq
  have hdown : 0 ≤ ⌊q / lastPlace q⌋ := Int.floor_nonneg.2 (div_nonneg hq.le (lastPlace_pos q).le)
  have hpos : 0 ≤ n := by
    have hle := Int.floor_le_ceil (q / lastPlace q)
    omega
  rw [hround] at h
  split at h
  · cases h
  · cases h
    exact mul_nonneg (by exact_mod_cast hpos) (lastPlace_pos q).le

/-- Below `2 ^ 53` the last place divides one. -/
theorem lastPlace_dvd {q : ℚ} (hq : 0 < q) (h : q < 2 ^ 53) : ∃ k : ℕ, k * lastPlace q = 1 := by
  have hlog : Int.log 2 q ≤ 52 := by
    refine Int.lt_add_one_iff.1 ((Int.lt_zpow_iff_log_lt (by norm_num) hq).1 ?_)
    exact_mod_cast h
  refine ⟨2 ^ (52 - max (Int.log 2 q) (-1022)).toNat, ?_⟩
  have hexp : ((52 - max (Int.log 2 q) (-1022)).toNat : ℤ) = 52 - max (Int.log 2 q) (-1022) := by
    omega
  unfold lastPlace
  rw [Nat.cast_pow, Nat.cast_ofNat, ← zpow_natCast, hexp, ← zpow_add₀ (by norm_num)]
  norm_num

/-- Rounding a number below `2 ^ 53` stays between the integers around it. -/
theorem ofRat_between {q : ℚ} (hq : 0 ≤ q) (h : q < 2 ^ 53) :
    ∃ r, JsNumber.ofRat q = .fin r ∧ (⌊q⌋ : ℚ) ≤ r ∧ r ≤ ⌈q⌉ := by
  rcases hq.eq_or_lt with rfl | hq
  · exact ⟨0, rfl, by simp, by simp⟩
  obtain ⟨n, hn, hround⟩ := ofRat_pos hq
  obtain ⟨k, hk⟩ := lastPlace_dvd hq h
  have hplace := lastPlace_pos q
  generalize lastPlace q = p at hn hround hk hplace
  -- every integer is a multiple of the last place
  have hmul : ∀ m : ℤ, (m : ℚ) = ((m * k : ℤ) : ℚ) * p := fun m => by
    push_cast
    rw [mul_assoc, hk, mul_one]
  have hlow : ((⌊q⌋ : ℤ) : ℚ) ≤ n * p := by
    have hfloor : ⌊q⌋ * k ≤ ⌊q / p⌋ := by
      rw [Int.le_floor, le_div_iff₀ hplace, ← hmul]
      exact Int.floor_le q
    rw [hmul ⌊q⌋]
    have hle : ⌊q⌋ * k ≤ n := by
      have hceil := Int.floor_le_ceil (q / p)
      omega
    exact mul_le_mul_of_nonneg_right (by exact_mod_cast hle) hplace.le
  have hhigh : (n : ℚ) * p ≤ ((⌈q⌉ : ℤ) : ℚ) := by
    have hceil : ⌈q / p⌉ ≤ ⌈q⌉ * k := by
      rw [Int.ceil_le, div_le_iff₀ hplace, ← hmul]
      exact Int.le_ceil q
    have hle : n ≤ ⌈q⌉ * k := by
      have hfloor := Int.floor_le_ceil (q / p)
      omega
    rw [hmul ⌈q⌉]
    exact mul_le_mul_of_nonneg_right (by exact_mod_cast hle) hplace.le
  refine ⟨n * p, ?_, hlow, hhigh⟩
  rw [hround, if_neg (not_le.2 ?_)]
  calc (n : ℚ) * p ≤ ⌈q⌉ := hhigh
    _ ≤ 2 ^ 53 := by exact_mod_cast Int.ceil_le.2 (by exact_mod_cast h.le)
    _ < 2 ^ 1024 := pow_lt_pow_right₀ (by norm_num) (by norm_num)

/-! ### Texts of digits -/

section digits
variable {cs : List Char} {s : String}

theorem digit_range {c : Char} (h : c.isDigit = true) : 48 ≤ c.toNat ∧ c.toNat ≤ 57 := by
  simpa [Char.isDigit, UInt32.le_iff_toNat_le] using h

theorem digitsNat_singleton {c : Char} (h : c.isDigit = true) :
    digitsNat 10 [c] = some (c.toNat - 48) := by
  have hrange := digit_range h
  have hsmall : c.toNat - 48 < 10 := by omega
  simp only [digitsNat, List.cons_ne_nil, List.foldl_cons, List.foldl_nil, h, if_true, if_false,
    zero_mul, zero_add]
  exact if_pos hsmall

/-- One more digit. -/
theorem digitsNat_concat {c : Char} {n : ℕ} (hn : digitsNat 10 cs = some n) (h : c.isDigit = true) :
    digitsNat 10 (cs ++ [c]) = some (n * 10 + (c.toNat - 48)) := by
  have hrange := digit_range h
  have hsmall : c.toNat - 48 < 10 := by omega
  unfold digitsNat at hn ⊢
  split at hn
  · cases hn
  · rw [if_neg (by simp), List.foldl_concat, hn]
    simp only [h, if_true]
    exact if_pos hsmall

/-- A text of digits is read as the number it writes. -/
theorem digitsNat_digits (hne : cs ≠ []) (h : ∀ c ∈ cs, c.isDigit = true) :
    ∃ n : ℕ, digitsNat 10 cs = some n ∧ digitsValue cs = n := by
  induction cs using List.reverseRecOn with
  | nil => exact absurd rfl hne
  | append_singleton cs c ih =>
    have hdigit := h c List.mem_concat_self
    have hrange := digit_range hdigit
    cases cs with
    | nil =>
      refine ⟨_, digitsNat_singleton hdigit, ?_⟩
      simp [digitsValue, hrange.1]
    | cons d ds =>
      obtain ⟨n, hn, hval⟩ := ih (List.cons_ne_nil d ds) fun x hx => h x (List.mem_append_left _ hx)
      refine ⟨_, digitsNat_concat hn hdigit, ?_⟩
      unfold digitsValue at hval ⊢
      rw [List.foldl_concat, hval]
      push_cast [hrange.1]
      ring

theorem takeWhile_digits (h : ∀ c ∈ cs, c.isDigit = true) :
    cs.takeWhile Char.isDigit = cs ∧ cs.dropWhile Char.isDigit = [] :=
  ⟨List.takeWhile_eq_self_iff.2 h, List.dropWhile_eq_nil_iff.2 h⟩

theorem unsignedDecimal_digits {n : ℕ} (h : ∀ c ∈ cs, c.isDigit = true)
    (hn : digitsNat 10 cs = some n) : unsignedDecimal cs = some (n : ℚ) := by
  obtain ⟨htake, hdrop⟩ := takeWhile_digits h
  unfold unsignedDecimal
  simp only [htake, hdrop, List.append_nil, hn, exponentPart, List.length_nil]
  norm_num

/-- Digits are no white space. -/
theorem jsTrimChars_digits (h : ∀ c ∈ cs, c.isDigit = true) : jsTrimChars cs = cs := by
  refine Strip.strip_self fun c hc => ?_
  rw [← Bool.not_eq_true]
  intro hblank
  have hrange := digit_range (h c hc)
  unfold jsWhitespace at hblank
  simp only [Bool.or_eq_true, decide_eq_true_eq, Bool.and_eq_true] at hblank
  rcases hblank with hlist | hrange'
  · simp only [List.mem_cons, List.not_mem_nil, or_false] at hlist
    rcases hlist with rfl | rfl | rfl | rfl | rfl | rfl | rfl | rfl | rfl | rfl | rfl | rfl |
      rfl | rfl <;> exact absurd hrange (by decide)
  · have hle : (0x2000 : ℕ) ≤ c.toNat := hrange'.1
    omega

/-- `Number` of a text of digits. -/
theorem stringToNumber_digits {n : ℕ} (hne : s.toList ≠ [])
    (h : ∀ c ∈ s.toList, c.isDigit = true) (hn : digitsNat 10 s.toList = some n) :
    stringToNumber s = .ofRat n := by
  unfold stringToNumber
  rw [jsTrimChars_digits h]
  generalize s.toList = cs at hne h hn
  have hfalse : ∀ {c : Char} {p : Prop}, c.isDigit = false → c ∈ cs → p := fun hc hmem =>
    absurd (h _ hmem) (by rw [hc]; exact Bool.false_ne_true)
  split
  · exact absurd rfl hne
  all_goals try exact hfalse (by decide) (List.mem_cons_of_mem _ List.mem_cons_self)
  · exact hfalse (c := '+') (by decide) List.mem_cons_self
  · exact hfalse (c := '-') (by decide) List.mem_cons_self
  · rw [if_neg, unsignedDecimal_digits h hn]
    · rfl
    · rintro rfl
      exact hfalse (c := 'I') (by decide) (by decide)

end digits

end CinemaLoyalty
