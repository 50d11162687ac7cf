import CinemaLoyalty.Lib.Utf16
import Mathlib.Data.List.Find
import Mathlib.Data.List.Nodup
import Mathlib.Data.Nat.Digits.Lemmas
import Mathlib.Data.Rat.Defs
import Mathlib.Tactic.Ring

/-! @lib JsonText | scheme:recursive-descent | layer:library

    `JSON.parse` and `JSON.stringify` over UTF-16 code units. Numbers are any type `ν` that the
    rational of a literal is rounded to. The parser takes fuel; the length of its text and one more
    is always enough (`value_fuel`). A value whose numbers read back and whose objects name no field
    twice reads back from its own text (`parse_stringify`). -/

namespace JsonText
open Utf16

/-- A JSON value. -/
inductive Value (ν : Type)
  | null
  | bool (b : Bool)
  | num (n : ν)
  | str (s : Text)
  | arr (items : List (Value ν))
  | obj (fields : List (Text × Value ν))

/-- The value of a field. -/
def Value.field {ν : Type} (v : Value ν) (name : Text) : Option (Value ν) :=
  match v with
  | .obj fields => (fields.find? (·.1 = name)).map (·.2)
  | _ => none

section fields
variable {κ β : Type} [DecidableEq κ] {fields shown : List (κ × β)}

/-- Where no name stands twice a name is found in any order of the fields. -/
theorem find_perm (hnames : (fields.map (·.1)).Nodup) (h : shown.Perm fields) (name : κ) :
    shown.find? (·.1 = name) = fields.find? (·.1 = name) := by
  refine List.find?_eq_find?_of_perm h ?_
  rintro f ⟨hf, hfname⟩ g ⟨hg, hgname⟩
  refine List.inj_on_of_nodup_map hnames (h.mem_iff.1 hf) (h.mem_iff.1 hg) ?_
  exact (of_decide_eq_true hfname).trans (of_decide_eq_true hgname).symm

end fields

/-! ### Units -/

abbrev QUOTE : UInt16 := 0x22
abbrev COMMA : UInt16 := 0x2C
abbrev MINUS : UInt16 := 0x2D
abbrev POINT : UInt16 := 0x2E
abbrev ZERO : UInt16 := 0x30
abbrev COLON : UInt16 := 0x3A
abbrev LBRACKET : UInt16 := 0x5B
abbrev BACKSLASH : UInt16 := 0x5C
abbrev RBRACKET : UInt16 := 0x5D
abbrev LBRACE : UInt16 := 0x7B
abbrev RBRACE : UInt16 := 0x7D

def isBlank (c : UInt16) : Bool := c = 0x09 || c = 0x0A || c = 0x0D || c = 0x20

def skipBlanks (s : Text) : Text := s.dropWhile isBlank

def isDigit (c : UInt16) : Bool := decide (0x30 ≤ c.toNat) && decide (c.toNat ≤ 0x39)

/-- The number written by decimal digits. -/
def digitsValue (ds : Text) : ℕ := ds.foldl (fun n d => 10 * n + (d.toNat - 0x30)) 0

/-- The value of a hexadecimal digit. -/
def hexDigit (c : UInt16) : Option ℕ :=
  if isDigit c then some (c.toNat - 0x30)
  else if 0x61 ≤ c.toNat ∧ c.toNat ≤ 0x66 then some (c.toNat - 0x57)
  else if 0x41 ≤ c.toNat ∧ c.toNat ≤ 0x46 then some (c.toNat - 0x37)
  else none

/-! ### Reading -/

section read
variable {ν β : Type} (ofRat : ℚ → ν)

/-- The digits after the point, if there is one. -/
def fraction : Text → Option (Text × Text)
  | [] => some ([], [])
  | c :: s =>
    if c = POINT then
      if s.takeWhile isDigit = [] then none
      else some (s.takeWhile isDigit, s.dropWhile isDigit)
    else some ([], c :: s)

/-- The exponent, if there is one. -/
def exponent : Text → Option (ℤ × Text)
  | [] => some (0, [])
  | c :: s =>
    if c = 0x65 ∨ c = 0x45 then
      let ds := if s.head? = some 0x2B ∨ s.head? = some MINUS then s.tail else s
      if ds.takeWhile isDigit = [] then none
      else
        let e : ℤ := digitsValue (ds.takeWhile isDigit)
        some (if s.head? = some MINUS then -e else e, ds.dropWhile isDigit)
    else some (0, c :: s)

/-- A number without its sign: digits without a leading zero, a fraction, an exponent. -/
def magnitude (s : Text) : Option (ℚ × Text) :=
  let whole := s.takeWhile isDigit
  if whole = [] ∨ (1 < whole.length ∧ whole.head? = some ZERO) then none
  else do
    let (frac, r) ← fraction (s.dropWhile isDigit)
    let (e, r) ← exponent r
    some (digitsValue (whole ++ frac) * (10 : ℚ) ^ (e - frac.length), r)

/-- A number. -/
def number (s : Text) : Option (ν × Text) :=
  if s.head? = some MINUS then (magnitude s.tail).map fun x => (ofRat (-x.1), x.2)
  else (magnitude s).map fun x => (ofRat x.1, x.2)

/-- The unit of an escape of one letter. -/
def unescape (c : UInt16) : Option UInt16 :=
  if c = QUOTE ∨ c = BACKSLASH ∨ c = 0x2F then some c
  else if c = 0x62 then some 0x08
  else if c = 0x66 then some 0x0C
  else if c = 0x6E then some 0x0A
  else if c = 0x72 then some 0x0D
  else if c = 0x74 then some 0x09
  else none

/-- The unit of four hexadecimal digits. -/
def hexUnit (a b c d : UInt16) : Option UInt16 := do
  let a ← hexDigit a
  let b ← hexDigit b
  let c ← hexDigit c
  let d ← hexDigit d
  some (UInt16.ofNat (4096 * a + 256 * b + 16 * c + d))

/-- A string from after its opening quote. -/
def string : Text → Option (Text × Text)
  | [] => none
  | c :: s =>
    if c = QUOTE then some ([], s)
    else if c = BACKSLASH then
      match s with
      | [] => none
      | x :: s =>
        if x = 0x75 then
          match s with
          | a :: b :: c :: d :: s => do
            let u ← hexUnit a b c d
            let (t, r) ← string s
            some (u :: t, r)
          | _ => none
        else do
          let u ← unescape x
          let (t, r) ← string s
          some (u :: t, r)
    else if c.toNat < 0x20 then none
    else do
      let (t, r) ← string s
      some (c :: t, r)

/-- Items separated by commas, up to the closing unit. -/
def items (item : Text → Option (β × Text)) (close : UInt16) : ℕ → Text → Option (List β × Text)
  | 0, _ => none
  | n + 1, s => do
    let (b, r) ← item s
    match skipBlanks r with
    | [] => none
    | c :: r =>
      if c = COMMA then do
        let (bs, r) ← items item close n r
        some (b :: bs, r)
      else if c = close then some ([b], r)
      else none

/-- Any number of items, up to the closing unit. -/
def listing (item : Text → Option (β × Text)) (close : UInt16) (n : ℕ) (s : Text) :
    Option (List β × Text) :=
  match skipBlanks s with
  | [] => none
  | c :: r => if c = close then some ([], r) else items item close n s

/-- A field of an object: a name and a value. -/
def member (value : Text → Option (β × Text)) (s : Text) : Option ((Text × β) × Text) :=
  match skipBlanks s with
  | [] => none
  | c :: s =>
    if c = QUOTE then do
      let (name, r) ← string s
      match skipBlanks r with
      | [] => none
      | c :: r =>
        if c = COLON then do
          let (b, r) ← value r
          some ((name, b), r)
        else none
    else none

/-- A field written to an object: a field of that name keeps its place and gets the new value. -/
def write (fields : List (Text × β)) (f : Text × β) : List (Text × β) :=
  if fields.any (·.1 = f.1) then fields.map fun g => if g.1 = f.1 then f else g else fields ++ [f]

/-- The object of the fields of a text. -/
def collect (fields : List (Text × β)) : List (Text × β) := fields.foldl write []

/-- A literal name. -/
def literal (s : Text) : Option (Value ν × Text) :=
  if (ofString "null").isPrefixOf s then some (.null, s.drop 4)
  else if (ofString "true").isPrefixOf s then some (.bool true, s.drop 4)
  else if (ofString "false").isPrefixOf s then some (.bool false, s.drop 5)
  else none

/-- A value, and what follows it. -/
def value : ℕ → Text → Option (Value ν × Text)
  | 0, _ => none
  | n + 1, s =>
    match skipBlanks s with
    | [] => none
    | c :: r =>
      if c = LBRACE then
        (listing (member (value n)) RBRACE n r).map fun x => (.obj (collect x.1), x.2)
      else if c = LBRACKET then (listing (value n) RBRACKET n r).map fun x => (.arr x.1, x.2)
      else if c = QUOTE then (string r).map fun x => (.str x.1, x.2)
      else if isDigit c || c = MINUS then (number ofRat (c :: r)).map fun x => (.num x.1, x.2)
      else literal (c :: r)

/-- `JSON.parse`. -/
def parse (s : Text) : Option (Value ν) := do
  let (v, r) ← value ofRat (s.length + 1) s
  if skipBlanks r = [] then some v else none

end read

/-! ### Writing -/

section write
variable {ν : Type} (numberText : ν → Text)

/-- A hexadecimal digit, in lower case. -/
def hexChar (n : ℕ) : UInt16 := UInt16.ofNat (if n < 10 then 0x30 + n else 0x57 + n)

/-- The escape of a unit by its number. -/
def unicodeEscape (c : UInt16) : Text :=
  [BACKSLASH, 0x75, hexChar (c.toNat / 4096), hexChar (c.toNat / 256 % 16),
    hexChar (c.toNat / 16 % 16), hexChar (c.toNat % 16)]

/-- A unit inside a string. A surrogate that gets here has no partner. -/
def escape (c : UInt16) : Text :=
  if c = QUOTE ∨ c = BACKSLASH then [BACKSLASH, c]
  else if c = 0x08 then [BACKSLASH, 0x62]
  else if c = 0x0C then [BACKSLASH, 0x66]
  else if c = 0x0A then [BACKSLASH, 0x6E]
  else if c = 0x0D then [BACKSLASH, 0x72]
  else if c = 0x09 then [BACKSLASH, 0x74]
  else if c.toNat < 0x20 || isHigh c || isLow c then unicodeEscape c
  else [c]

/-- The inside of a string: a pair of surrogates stays as it is. -/
def quoted : Text → Text
  | [] => []
  | [c] => escape c
  | c :: d :: s => if isHigh c && isLow d then c :: d :: quoted s else escape c ++ quoted (d :: s)

/-- A string with its quotes. -/
def quote (s : Text) : Text := QUOTE :: (quoted s ++ [QUOTE])

mutual
/-- `JSON.stringify`. -/
def stringify : Value ν → Text
  | .null => ofString "null"
  | .bool b => if b then ofString "true" else ofString "false"
  | .num n => numberText n
  | .str s => quote s
  | .arr vs => LBRACKET :: (stringifyItems vs ++ [RBRACKET])
  | .obj fs => LBRACE :: (stringifyFields fs ++ [RBRACE])

/-- The items of an array, separated by commas. -/
def stringifyItems : List (Value ν) → Text
  | [] => []
  | v :: vs => stringify v ++ if vs.isEmpty then [] else COMMA :: stringifyItems vs

/-- The fields of an object, separated by commas. -/
def stringifyFields : List (Text × Value ν) → Text
  | [] => []
  | (name, v) :: fs =>
    quote name ++ COLON :: (stringify v ++ if fs.isEmpty then [] else COMMA :: stringifyFields fs)
end

end write

/-! ### Strings read back -/

section strings
variable {c : UInt16} {s r : Text}

theorem string_plain (hquote : c ≠ QUOTE) (hback : c ≠ BACKSLASH) (hcontrol : ¬c.toNat < 0x20)
    (t : Text) :
    string (c :: t) = (string t).map fun x => (c :: x.1, x.2) := by
  rw [string.eq_def]
  simp only [if_neg hquote, if_neg hback, if_neg hcontrol]
  cases string t <;> rfl

theorem string_letter {x : UInt16} (hx : x ≠ 0x75) (h : unescape x = some c) (t : Text) :
    string (BACKSLASH :: x :: t) = (string t).map fun x => (c :: x.1, x.2) := by
  rw [string.eq_def]
  simp only [if_neg (show BACKSLASH ≠ QUOTE by decide), if_true, if_neg hx, h]
  cases string t <;> rfl

theorem hexDigit_hexChar {n : ℕ} (h : n < 16) : hexDigit (hexChar n) = some n := by
  revert h n
  decide

/-- The escape of a unit by its number is read as the unit. -/
theorem string_unicode (c : UInt16) (t : Text) :
    string (unicodeEscape c ++ t) = (string t).map fun x => (c :: x.1, x.2) := by
  have hlt := c.toNat_lt
  have hunit : hexUnit (hexChar (c.toNat / 4096)) (hexChar (c.toNat / 256 % 16))
      (hexChar (c.toNat / 16 % 16)) (hexChar (c.toNat % 16)) = some c := by
    unfold hexUnit
    rw [hexDigit_hexChar (by omega), hexDigit_hexChar (by omega), hexDigit_hexChar (by omega),
      hexDigit_hexChar (by omega)]
    have hsum : 4096 * (c.toNat / 4096) + 256 * (c.toNat / 256 % 16) + 16 * (c.toNat / 16 % 16) +
        c.toNat % 16 = c.toNat := by omega
    simp only [Option.bind_eq_bind, Option.bind_some, hsum, UInt16.ofNat_toNat]
  unfold unicodeEscape
  rw [string.eq_def]
  simp only [List.cons_append, List.nil_append, if_neg (show BACKSLASH ≠ QUOTE by decide), if_true,
    hunit]
  cases string t <;> rfl

theorem string_escape (c : UInt16) (t : Text) :
    string (escape c ++ t) = (string t).map fun x => (c :: x.1, x.2) := by
  unfold escape
  split
  · rename_i h
    refine string_letter ?_ ?_ t
    · rcases h with rfl | rfl <;> decide
    · rcases h with rfl | rfl <;> decide
  rename_i hplain
  rw [not_or] at hplain
  split
  · subst c
    exact string_letter (by decide) (by decide) t
  split
  · subst c
    exact string_letter (by decide) (by decide) t
  split
  · subst c
    exact string_letter (by decide) (by decide) t
  split
  · subst c
    exact string_letter (by decide) (by decide) t
  split
  · subst c
    exact string_letter (by decide) (by decide) t
  split
  · exact string_unicode c t
  · rename_i hcontrol
    refine string_plain hplain.1 hplain.2 ?_ t
    simp only [Bool.or_eq_true, decide_eq_true_eq, not_or] at hcontrol
    exact hcontrol.1.1

/-- A surrogate is an ordinary unit of a string. -/
theorem string_surrogate (h : isHigh c = true ∨ isLow c = true) (t : Text) :
    string (c :: t) = (string t).map fun x => (c :: x.1, x.2) := by
  have hlarge : 0xD800 ≤ c.toNat := by
    simp only [isHigh, isLow, Bool.and_eq_true, decide_eq_true_eq] at h
    omega
  have hne : ∀ d : UInt16, d.toNat < 0xD800 → c ≠ d := by
    rintro d hd rfl
    omega
  exact string_plain (hne _ (by decide)) (hne _ (by decide)) (by omega) t

/-- A string reads back from its own text. -/
theorem string_quoted (s r : Text) : string (quoted s ++ QUOTE :: r) = some (s, r) := by
  fun_induction quoted s with
  | case1 => rw [List.nil_append, string.eq_def]; simp
  | case2 c =>
    rw [string_escape, string.eq_def]
    simp
  | case3 c d s h ih =>
    rw [Bool.and_eq_true] at h
    rw [List.cons_append, List.cons_append, string_surrogate (.inl h.1), string_surrogate (.inr h.2),
      ih]
    rfl
  | case4 c d s h ih =>
    rw [List.append_assoc, string_escape, ih]
    rfl

end strings

/-! ### Listings read back -/

/-- Texts separated by commas. -/
def commas : List Text → Text
  | [] => []
  | [s] => s
  | s :: ss => s ++ COMMA :: commas ss

theorem commas_cons (s t : Text) (ss : List Text) :
    commas (s :: t :: ss) = s ++ COMMA :: commas (t :: ss) := rfl

section listings
variable {β : Type} {text : β → Text} {item : Text → Option (β × Text)} {close : UInt16} {bs : List β}

theorem skipBlanks_cons {c : UInt16} (h : isBlank c = false) (s : Text) :
    skipBlanks (c :: s) = c :: s :=
  List.dropWhile_cons_of_neg (by rw [h]; exact Bool.false_ne_true)

theorem length_commas {ss : List Text} {s : Text} (h : s ∈ ss) : s.length ≤ (commas ss).length := by
  fun_induction commas ss with
  | case1 => cases h
  | case2 s' =>
    obtain rfl := List.mem_singleton.1 h
    exact le_rfl
  | case3 s' ss hne ih =>
    rw [List.length_append, List.length_cons]
    rcases List.mem_cons.1 h with rfl | h
    · omega
    · have := ih h
      omega

theorem count_commas {ss : List Text} (h : ∀ s ∈ ss, s ≠ []) : ss.length ≤ (commas ss).length := by
  fun_induction commas ss with
  | case1 => exact le_rfl
  | case2 s => exact List.length_pos_iff.2 (h s List.mem_cons_self)
  | case3 s ss hne ih =>
    have := ih fun x hx => h x (List.mem_cons_of_mem _ hx)
    rw [List.length_append, List.length_cons, List.length_cons]
    omega

/-- Items that read back before a comma and before the closing unit read back as a whole. -/
theorem items_commas (hclose : isBlank close = false) (hne : close ≠ COMMA)
    (hitem : ∀ b ∈ bs, ∀ c r, c = COMMA ∨ c = close → item (text b ++ c :: r) = some (b, c :: r))
    {k : ℕ} (hk : bs.length ≤ k) (hbs : bs ≠ []) (r : Text) :
    items item close k (commas (bs.map text) ++ close :: r) = some (bs, r) := by
  induction bs generalizing k with
  | nil => exact absurd rfl hbs
  | cons b bs ih =>
    obtain ⟨k, rfl⟩ : ∃ m, k = m + 1 := ⟨k - 1, by rw [List.length_cons] at hk; omega⟩
    have hfirst := hitem b List.mem_cons_self
    cases bs with
    | nil =>
      simp only [List.map_cons, List.map_nil, commas, items, hfirst close r (.inr rfl),
        Option.bind_eq_bind, Option.bind_some, skipBlanks_cons hclose, if_neg hne, if_true]
    | cons b' bs =>
      have hrest := ih (fun x hx => hitem x (List.mem_cons_of_mem _ hx)) (k := k)
        (by rw [List.length_cons] at hk; omega) (by simp)
      rw [List.map_cons] at hrest
      simp only [List.map_cons, commas, List.append_assoc, List.cons_append, items,
        hfirst COMMA _ (.inl rfl), Option.bind_eq_bind, Option.bind_some,
        skipBlanks_cons (show isBlank COMMA = false by decide), if_true, hrest]

/-- A listing reads back if its items do and none begins like its end. -/
theorem listing_commas (hclose : isBlank close = false) (hne : close ≠ COMMA)
    (hitem : ∀ b ∈ bs, ∀ c r, c = COMMA ∨ c = close → item (text b ++ c :: r) = some (b, c :: r))
    (hstart : ∀ b ∈ bs, ∃ c s, text b = c :: s ∧ isBlank c = false ∧ c ≠ close)
    {k : ℕ} (hk : (commas (bs.map text)).length ≤ k) (r : Text) :
    listing item close k (commas (bs.map text) ++ close :: r) = some (bs, r) := by
  cases bs with
  | nil => simp [commas, listing, skipBlanks_cons hclose]
  | cons b bs =>
    have hcount : ((b :: bs).map text).length ≤ (commas ((b :: bs).map text)).length := by
      refine count_commas fun s hs => ?_
      obtain ⟨x, hx, rfl⟩ := List.mem_map.1 hs
      obtain ⟨c, s, hs, _, _⟩ := hstart x hx
      simp [hs]
    have hitems := items_commas hclose hne hitem (k := k)
      (by rw [List.length_map] at hcount; omega) (by simp) r
    obtain ⟨c, s, hs, hblank, hc⟩ := hstart b List.mem_cons_self
    obtain ⟨s', hs'⟩ : ∃ s', commas ((b :: bs).map text) = c :: s' := by
      cases bs with
      | nil => exact ⟨s, by simpa [commas] using hs⟩
      | cons b' bs =>
        rw [List.map_cons, List.map_cons, commas_cons, hs]
        exact ⟨_, rfl⟩
    rw [hs', List.cons_append] at hitems ⊢
    unfold listing
    rw [skipBlanks_cons hblank]
    simp only [if_neg hc, hitems]

/-- Writing fields of different names one after the other keeps them all. -/
theorem write_append (fs : List (Text × β)) :
    ∀ acc : List (Text × β), ((acc ++ fs).map (·.1)).Nodup → fs.foldl write acc = acc ++ fs := by
  induction fs with
  | nil => simp
  | cons f fs ih =>
    intro acc h
    have hnew : acc.any (·.1 = f.1) = false := by
      rw [List.any_eq_false]
      intro g hg heq
      rw [decide_eq_true_eq] at heq
      simp only [List.map_append, List.map_cons] at h
      exact (List.nodup_append.1 h).2.2 _ (List.mem_map_of_mem hg) f.1 List.mem_cons_self heq
    have hwrite : write acc f = acc ++ [f] := by
      unfold write
      rw [hnew]
      rfl
    rw [List.foldl_cons, hwrite, ih, List.append_assoc]
    · rfl
    · rwa [List.append_assoc]

theorem collect_nodup {fs : List (Text × β)} (h : (fs.map (·.1)).Nodup) : collect fs = fs :=
  write_append fs [] h

end listings

/-! ### Values read back -/

section values
variable {ν : Type} {ofRat : ℚ → ν} {numberText : ν → Text}

/-- A text after which a number ends. -/
def Ends (r : Text) : Prop :=
  ∀ c ∈ r.head?, isDigit c = false ∧ c ≠ POINT ∧ c ≠ 0x65 ∧ c ≠ 0x45

/-- The number is read from its own text. -/
structure ReadsBack (ofRat : ℚ → ν) (numberText : ν → Text) (n : ν) : Prop where
  starts : ∃ c s, numberText n = c :: s ∧ (isDigit c || c = MINUS) = true
  reads : ∀ r, Ends r → number ofRat (numberText n ++ r) = some (n, r)

/-- Every number reads back and no object names a field twice. -/
inductive Readable (ofRat : ℚ → ν) (numberText : ν → Text) : Value ν → Prop
  | null : Readable ofRat numberText .null
  | bool (b : Bool) : Readable ofRat numberText (.bool b)
  | num {n : ν} (h : ReadsBack ofRat numberText n) : Readable ofRat numberText (.num n)
  | str (s : Text) : Readable ofRat numberText (.str s)
  | arr {vs : List (Value ν)} (h : ∀ v ∈ vs, Readable ofRat numberText v) :
      Readable ofRat numberText (.arr vs)
  | obj {fs : List (Text × Value ν)} (hnames : (fs.map (·.1)).Nodup)
      (h : ∀ f ∈ fs, Readable ofRat numberText f.2) : Readable ofRat numberText (.obj fs)

variable (numberText) in
/-- The text of a field. -/
def fieldText (f : Text × Value ν) : Text := quote f.1 ++ COLON :: stringify numberText f.2

theorem stringifyItems_eq (vs : List (Value ν)) :
    stringifyItems numberText vs = commas (vs.map (stringify numberText)) := by
  induction vs with
  | nil => rfl
  | cons v vs ih =>
    cases vs with
    | nil => simp [stringifyItems, commas]
    | cons w vs =>
      rw [stringifyItems, ih]
      rfl

theorem stringifyFields_eq (fs : List (Text × Value ν)) :
    stringifyFields numberText fs = commas (fs.map (fieldText numberText)) := by
  induction fs with
  | nil => rfl
  | cons f fs ih =>
    cases fs with
    | nil => simp [stringifyFields, commas, fieldText]
    | cons g fs =>
      rw [stringifyFields, ih]
      simp [commas, fieldText]

/-- No text begins with a blank or the end of an array. -/
theorem stringify_starts {v : Value ν} (h : Readable ofRat numberText v) :
    ∃ c s, stringify numberText v = c :: s ∧ isBlank c = false ∧ c ≠ RBRACKET := by
  cases h with
  | null => exact ⟨_, _, rfl, by decide, by decide⟩
  | bool b => cases b <;> exact ⟨_, _, rfl, by decide, by decide⟩
  | num h =>
    obtain ⟨c, s, hs, hc⟩ := h.starts
    refine ⟨c, s, by rw [stringify, hs], ?_, ?_⟩
    · have hall : ∀ c : UInt16, isBlank c = true → (isDigit c || c = MINUS) = false := by
        intro c hb
        simp only [isBlank, Bool.or_eq_true, decide_eq_true_eq] at hb
        rcases hb with ((rfl | rfl) | rfl) | rfl <;> decide
      by_contra hb
      rw [Bool.not_eq_false] at hb
      rw [hall c hb] at hc
      cases hc
    · rintro rfl
      exact absurd hc (by decide)
  | str s => exact ⟨_, _, by rw [stringify, quote], by decide, by decide⟩
  | arr h => exact ⟨_, _, by rw [stringify], by decide, by decide⟩
  | obj _ h => exact ⟨_, _, by rw [stringify], by decide, by decide⟩

/-- What follows an item or a field ends a number. -/
theorem ends_cons {c : UInt16} (h : c = COMMA ∨ c = RBRACKET ∨ c = RBRACE) (r : Text) :
    Ends (c :: r) := by
  intro d hd
  obtain rfl : c = d := by simpa using hd
  rcases h with rfl | rfl | rfl <;> decide

/-- A field reads back if its value does. -/
theorem member_fieldText {f : Text × Value ν} {read : Text → Option (Value ν × Text)} {r : Text}
    (h : read (stringify numberText f.2 ++ r) = some (f.2, r)) :
    member read (fieldText numberText f ++ r) = some (f, r) := by
  unfold member fieldText quote
  simp only [List.cons_append, List.append_assoc, List.nil_append,
    skipBlanks_cons (show isBlank QUOTE = false by decide), if_true, string_quoted,
    skipBlanks_cons (show isBlank COLON = false by decide), Option.bind_eq_bind, Option.bind_some, h]

/-- A value reads back from its own text, whatever follows it. -/
theorem value_stringify {v : Value ν} (h : Readable ofRat numberText v) :
    ∀ {n : ℕ} {r : Text}, (stringify numberText v).length ≤ n → Ends r →
      value ofRat (n + 1) (stringify numberText v ++ r) = some (v, r) := by
  induction h with
  | null =>
    intros
    rfl
  | bool b =>
    intros
    cases b <;> rfl
  | num h =>
    intro n r hn hr
    obtain ⟨c, s, hs, hc⟩ := h.starts
    have hother : ∀ d : UInt16, (isDigit d || d = MINUS) = false → c ≠ d := by
      rintro d hd rfl
      rw [hd] at hc
      cases hc
    have hblank : isBlank c = false := by
      simp only [isBlank, Bool.or_eq_false_iff, decide_eq_false_iff_not]
      exact ⟨⟨⟨hother _ (by decide), hother _ (by decide)⟩, hother _ (by decide)⟩,
        hother _ (by decide)⟩
    have hread := h.reads r hr
    rw [stringify] at hn ⊢
    rw [hs, List.cons_append] at hread ⊢
    simp only [value, skipBlanks_cons hblank, if_neg (hother LBRACE (by decide)),
      if_neg (hother LBRACKET (by decide)), if_neg (hother QUOTE (by decide)), hc, if_true, hread,
      Option.map_some]
  | str s =>
    intros
    simp only [stringify, quote, List.cons_append, List.append_assoc, List.nil_append, value,
      skipBlanks_cons (show isBlank QUOTE = false by decide),
      if_neg (show QUOTE ≠ LBRACE by decide), if_neg (show QUOTE ≠ LBRACKET by decide), if_true,
      string_quoted, Option.map_some]
  | @arr vs h ih =>
    intro n r hn _
    rw [stringify, stringifyItems_eq] at hn ⊢
    simp only [List.length_cons, List.length_append, List.length_nil] at hn
    have hitem : ∀ v ∈ vs, ∀ c r, c = COMMA ∨ c = RBRACKET →
        value ofRat n (stringify numberText v ++ c :: r) = some (v, c :: r) := by
      intro v hv c r hc
      have hlen := length_commas (List.mem_map_of_mem (f := stringify numberText) hv)
      obtain ⟨m, rfl⟩ : ∃ m, n = m + 1 := ⟨n - 1, by omega⟩
      exact ih v hv (by omega) (ends_cons (hc.imp id .inl) r)
    have hlist := listing_commas (show isBlank RBRACKET = false by decide) (by decide) hitem
      (fun v hv => stringify_starts (h v hv)) (k := n) (by omega) r
    simp only [List.cons_append, List.append_assoc, List.nil_append, value,
      skipBlanks_cons (show isBlank LBRACKET = false by decide),
      if_neg (show LBRACKET ≠ LBRACE by decide), if_true, hlist, Option.map_some]
  | @obj fs hnames h ih =>
    intro n r hn _
    rw [stringify, stringifyFields_eq] at hn ⊢
    simp only [List.length_cons, List.length_append, List.length_nil] at hn
    have hitem : ∀ f ∈ fs, ∀ c r, c = COMMA ∨ c = RBRACE →
        member (value ofRat n) (fieldText numberText f ++ c :: r) = some (f, c :: r) := by
      intro f hf c r hc
      have hlen := length_commas (List.mem_map_of_mem (f := fieldText numberText) hf)
      simp only [fieldText, List.length_append, List.length_cons] at hlen
      obtain ⟨m, rfl⟩ : ∃ m, n = m + 1 := ⟨n - 1, by omega⟩
      exact member_fieldText (ih f hf (by omega) (ends_cons (hc.imp id .inr) r))
    have hlist := listing_commas (show isBlank RBRACE = false by decide) (by decide) hitem
      (fun f _ => ⟨QUOTE, _, by rw [fieldText, quote, List.cons_append], by decide, by decide⟩)
      (k := n) (by omega) r
    simp only [List.cons_append, List.append_assoc, List.nil_append, value,
      skipBlanks_cons (show isBlank LBRACE = false by decide), if_true, hlist, Option.map_some,
      collect_nodup hnames]

/-- `JSON.parse` reads what `JSON.stringify` wrote. -/
theorem parse_stringify {v : Value ν} (h : Readable ofRat numberText v) :
    parse ofRat (stringify numberText v) = some v := by
  have hread := value_stringify h (r := []) le_rfl (by simp [Ends])
  rw [List.append_nil] at hread
  unfold parse
  rw [hread, Option.bind_eq_bind, Option.bind_some]
  exact if_pos rfl

end values

/-! ### Integers read back -/

/-- A natural number in decimal. -/
def natText (n : ℕ) : Text :=
  if n = 0 then [ZERO] else (Nat.digits 10 n).reverse.map fun d => UInt16.ofNat (0x30 + d)

/-- An integer in decimal. -/
def intText (k : ℤ) : Text := if k < 0 then MINUS :: natText k.natAbs else natText k.natAbs

section integers
variable {ν : Type} {ofRat : ℚ → ν} {numberText : ν → Text} {r : Text}

theorem digit_toNat {d : ℕ} (h : d < 10) : (UInt16.ofNat (0x30 + d)).toNat = 0x30 + d :=
  toNat_ofNat (by omega)

theorem natText_digits (n : ℕ) : ∀ c ∈ natText n, isDigit c = true := by
  unfold natText
  split
  · simp only [List.mem_singleton]
    rintro c rfl
    decide
  · intro c hc
    obtain ⟨d, hd, rfl⟩ := List.mem_map.1 hc
    have hlt := Nat.digits_lt_base (by norm_num) (List.mem_reverse.1 hd)
    simp only [isDigit, digit_toNat hlt, Bool.and_eq_true, decide_eq_true_eq]
    omega

theorem natText_ne_nil (n : ℕ) : natText n ≠ [] := by
  unfold natText
  split
  · simp
  · rename_i hn
    simpa using Nat.digits_ne_nil_iff_ne_zero.2 hn

/-- The digits of a number write it. -/
theorem digitsValue_natText (n : ℕ) : digitsValue (natText n) = n := by
  unfold natText
  split
  · subst n
    rfl
  · have hfold : ∀ ds : List ℕ, (∀ d ∈ ds, d < 10) →
        digitsValue (ds.reverse.map fun d => UInt16.ofNat (0x30 + d)) = Nat.ofDigits 10 ds := by
      intro ds
      induction ds with
      | nil => intro _; rfl
      | cons d ds ih =>
        intro h
        have hd := h d List.mem_cons_self
        have hrest := ih fun x hx => h x (List.mem_cons_of_mem _ hx)
        unfold digitsValue at hrest ⊢
        rw [List.reverse_cons, List.map_append, List.foldl_append, hrest, Nat.ofDigits_cons]
        simp only [List.map_cons, List.map_nil, List.foldl_cons, List.foldl_nil, digit_toNat hd]
        omega
    rw [hfold _ fun d hd => Nat.digits_lt_base (by norm_num) hd, Nat.ofDigits_digits]

/-- Only zero begins with a zero. -/
theorem natText_head (n : ℕ) : ¬(1 < (natText n).length ∧ (natText n).head? = some ZERO) := by
  unfold natText
  split
  · simp
  · rename_i hn
    rintro ⟨-, hhead⟩
    have hne : Nat.digits 10 n ≠ [] := Nat.digits_ne_nil_iff_ne_zero.2 hn
    rw [List.head?_map, List.head?_reverse, List.getLast?_eq_some_getLast hne, Option.map_some,
      Option.some.injEq] at hhead
    have hlt := Nat.digits_lt_base (by norm_num) (List.getLast_mem hne)
    have hzero := congrArg UInt16.toNat hhead
    rw [digit_toNat hlt] at hzero
    have hlast := Nat.getLast_digit_ne_zero 10 hn
    have hchar : ZERO.toNat = 0x30 := rfl
    omega

theorem fraction_ends (h : Ends r) : fraction r = some ([], r) := by
  cases r with
  | nil => rfl
  | cons c r =>
    have hc := h c rfl
    rw [fraction, if_neg hc.2.1]

theorem exponent_ends (h : Ends r) : exponent r = some (0, r) := by
  cases r with
  | nil => rfl
  | cons c r =>
    have hc := h c rfl
    rw [exponent, if_neg (by tauto)]

theorem span_digits (n : ℕ) (h : Ends r) :
    (natText n ++ r).takeWhile isDigit = natText n ∧ (natText n ++ r).dropWhile isDigit = r := by
  have hr : r.takeWhile isDigit = [] ∧ r.dropWhile isDigit = r := by
    cases r with
    | nil => exact ⟨rfl, rfl⟩
    | cons c r =>
      have hc := (h c rfl).1
      simp [hc]
  rw [List.takeWhile_append_of_pos (natText_digits n), List.dropWhile_append_of_pos (natText_digits n),
    hr.1, hr.2, List.append_nil]
  exact ⟨rfl, rfl⟩

/-- Decimal digits are read as the number they write. -/
theorem magnitude_natText (n : ℕ) (h : Ends r) : magnitude (natText n ++ r) = some ((n : ℚ), r) := by
  obtain ⟨htake, hdrop⟩ := span_digits n h
  unfold magnitude
  simp only [htake, hdrop]
  rw [if_neg (not_or.2 ⟨natText_ne_nil n, natText_head n⟩)]
  simp [fraction_ends h, exponent_ends h, digitsValue_natText]

/-- An integer reads back. -/
theorem number_intText (k : ℤ) (h : Ends r) : number ofRat (intText k ++ r) = some (ofRat k, r) := by
  unfold intText number
  split
  · rename_i hk
    have habs : -((k.natAbs : ℕ) : ℚ) = k := by
      rw [Nat.cast_natAbs, abs_of_neg hk]
      push_cast
      ring
    rw [List.cons_append, if_pos (by simp), List.tail_cons, magnitude_natText _ h, Option.map_some,
      habs]
  · rename_i hk
    have hhead : (natText k.natAbs ++ r).head? ≠ some MINUS := by
      obtain ⟨c, s, hs⟩ := List.exists_cons_of_ne_nil (natText_ne_nil k.natAbs)
      have hdigit := natText_digits k.natAbs c (by rw [hs]; exact List.mem_cons_self)
      rw [hs]
      rintro heq
      obtain rfl : c = MINUS := by simpa using heq
      exact absurd hdigit (by decide)
    have habs : ((k.natAbs : ℕ) : ℚ) = k := by
      rw [Nat.cast_natAbs, abs_of_nonneg (not_lt.1 hk)]
    rw [if_neg hhead, magnitude_natText _ h, Option.map_some, habs]

/-- A number written as an integer reads back if it is what the integer is rounded to. -/
theorem readsBack_int {n : ν} {k : ℤ} (htext : numberText n = intText k) (hn : ofRat k = n) :
    ReadsBack ofRat numberText n where
  starts := by
    rw [htext]
    unfold intText
    split
    · exact ⟨_, _, rfl, by decide⟩
    · obtain ⟨c, s, hs⟩ := List.exists_cons_of_ne_nil (natText_ne_nil k.natAbs)
      refine ⟨c, s, hs, ?_⟩
      rw [natText_digits k.natAbs c (by rw [hs]; exact List.mem_cons_self), Bool.true_or]
  reads r hr := by rw [htext, number_intText k hr, hn]

end integers

/-! ### Fuel -/

section fuel
variable {ν β : Type} {ofRat : ℚ → ν} {item item' : Text → Option (β × Text)} {close : UInt16}
  {s r : Text} {n m : ℕ}

/-- Whatever is read is shorter than before. -/
def Shrinks (item : Text → Option (β × Text)) : Prop :=
  ∀ s b r, item s = some (b, r) → r.length < s.length

theorem length_skipBlanks (s : Text) : (skipBlanks s).length ≤ s.length :=
  (List.dropWhile_sublist isBlank).length_le

/-- One more unit in front of what shrinks. -/
theorem shrinks_cons {o : Option (β × Text)} {f : β → β} {x : β} {c : UInt16}
    (ho : ∀ b r, o = some (b, r) → r.length < s.length)
    (h : (do let (b, r) ← o; some (f b, r)) = some (x, r)) : r.length < (c :: s).length := by
  obtain ⟨⟨b, r'⟩, hb, h⟩ := Option.bind_eq_some_iff.1 h
  cases h
  exact (ho _ _ hb).trans (Nat.lt_succ_self _)

/-- Wrapping what is read shrinks as much. -/
theorem shrinks_map {γ : Type} {o : Option (γ × Text)} {f : γ × Text → β × Text} {b : β}
    (ho : ∀ c r, o = some (c, r) → r.length < s.length) (h : o.map f = some (b, r))
    (hf : ∀ x, (f x).2 = x.2) : r.length < s.length := by
  obtain ⟨x, hx, h⟩ := Option.map_eq_some_iff.1 h
  have hrest : r = x.2 := by rw [← hf x, h]
  rw [hrest]
  exact ho x.1 x.2 hx

theorem string_shrinks : Shrinks string := by
  intro s
  fun_induction string s with
  | case2 s =>
    intro t r h
    cases h
    exact Nat.lt_succ_self _
  | case4 a b c d s hquote ih =>
    intro t r h
    obtain ⟨u, -, h⟩ := Option.bind_eq_some_iff.1 h
    have := shrinks_cons (c := d) ih h
    simp only [List.length_cons] at this ⊢
    omega
  | case6 x s hx hquote ih =>
    intro t r h
    obtain ⟨u, -, h⟩ := Option.bind_eq_some_iff.1 h
    exact (shrinks_cons (c := x) ih h).trans (Nat.lt_succ_self _)
  | case8 c s hquote hback hcontrol ih =>
    intro t r h
    exact shrinks_cons ih h
  | _ => nofun

theorem digits_split (s : Text) :
    (s.takeWhile isDigit).length + (s.dropWhile isDigit).length = s.length := by
  rw [← List.length_append, List.takeWhile_append_dropWhile]

theorem fraction_shrinks {ds : Text} (h : fraction s = some (ds, r)) : r.length ≤ s.length := by
  cases s with
  | nil =>
    cases h
    exact le_rfl
  | cons c s =>
    have := digits_split s
    simp only [fraction] at h
    split at h
    · split at h
      · cases h
      · cases h
        rw [List.length_cons]
        omega
    · cases h
      exact le_rfl

theorem exponent_shrinks {e : ℤ} (h : exponent s = some (e, r)) : r.length ≤ s.length := by
  cases s with
  | nil =>
    cases h
    exact le_rfl
  | cons c s =>
    simp only [exponent] at h
    split at h
    · have hsign : (if s.head? = some 0x2B ∨ s.head? = some MINUS then s.tail else s).length ≤
          s.length := by
        split
        · rw [List.length_tail]
          omega
        · exact le_rfl
      generalize (if s.head? = some 0x2B ∨ s.head? = some MINUS then s.tail else s) = ds at h hsign
      have := digits_split ds
      split at h
      · cases h
      · cases h
        rw [List.length_cons]
        omega
    · cases h
      exact le_rfl

theorem magnitude_shrinks : Shrinks magnitude := by
  intro s q r h
  unfold magnitude at h
  simp only at h
  split at h
  · cases h
  · rename_i hwhole
    obtain ⟨⟨frac, r₁⟩, hfrac, h⟩ := Option.bind_eq_some_iff.1 h
    obtain ⟨⟨e, r₂⟩, hexp, h⟩ := Option.bind_eq_some_iff.1 h
    have hpos := List.length_pos_iff.2 (not_or.1 hwhole).1
    have hsplit := digits_split s
    have hfrac := fraction_shrinks hfrac
    have hexp := exponent_shrinks hexp
    cases h
    simp only at hfrac hexp ⊢
    omega

theorem number_shrinks : Shrinks (number ofRat) := by
  intro s x r h
  unfold number at h
  split at h
  · have := shrinks_map (s := s.tail) (magnitude_shrinks _) h fun _ => rfl
    rw [List.length_tail] at this
    omega
  · exact shrinks_map (magnitude_shrinks _) h fun _ => rfl

theorem literal_shrinks : Shrinks (literal (ν := ν)) := by
  intro s v r h
  cases s with
  | nil => cases h
  | cons c s =>
    have hdrop : ∀ k, 0 < k → ((c :: s).drop k).length < (c :: s).length := by
      intro k hk
      rw [List.length_drop, List.length_cons]
      omega
    unfold literal at h
    split at h
    · cases h
      exact hdrop 4 (by decide)
    split at h
    · cases h
      exact hdrop 4 (by decide)
    split at h
    · cases h
      exact hdrop 5 (by decide)
    · cases h

theorem items_shrinks (h : Shrinks item) (n : ℕ) : Shrinks (items item close n) := by
  induction n with
  | zero => nofun
  | succ n ih =>
    intro s bs r hr
    obtain ⟨⟨b, r₁⟩, hb, hr⟩ := Option.bind_eq_some_iff.1 hr
    have hfirst := h _ _ _ hb
    have hblank := length_skipBlanks r₁
    simp only at hr
    split at hr
    · cases hr
    · rename_i c r₂ hskip
      rw [hskip, List.length_cons] at hblank
      split at hr
      · obtain ⟨x, hbs, hr⟩ := Option.bind_eq_some_iff.1 hr
        have := ih _ x.1 x.2 hbs
        cases hr
        omega
      split at hr
      · cases hr
        omega
      · cases hr

theorem listing_shrinks (h : Shrinks item) (n : ℕ) : Shrinks (listing item close n) := by
  intro s bs r hr
  have hblank := length_skipBlanks s
  unfold listing at hr
  split at hr
  · cases hr
  · rename_i c r' hskip
    rw [hskip, List.length_cons] at hblank
    split at hr
    · cases hr
      omega
    · exact items_shrinks h n _ _ _ hr

theorem member_shrinks (h : Shrinks item) : Shrinks (member item) := by
  intro s f r hr
  have hblank := length_skipBlanks s
  unfold member at hr
  split at hr
  · cases hr
  · rename_i c s' hskip
    rw [hskip, List.length_cons] at hblank
    split at hr
    · obtain ⟨⟨name, r₁⟩, hname, hr⟩ := Option.bind_eq_some_iff.1 hr
      have hstring := string_shrinks _ _ _ hname
      have hblank' := length_skipBlanks r₁
      simp only at hr
      split at hr
      · cases hr
      · rename_i c' r₂ hskip'
        rw [hskip', List.length_cons] at hblank'
        split at hr
        · obtain ⟨x, hb, hr⟩ := Option.bind_eq_some_iff.1 hr
          have := h _ x.1 x.2 hb
          cases hr
          omega
        · cases hr
    · cases hr

theorem value_shrinks (n : ℕ) : Shrinks (value ofRat n) := by
  induction n with
  | zero => nofun
  | succ n ih =>
    intro s v r hr
    have hblank := length_skipBlanks s
    unfold value at hr
    split at hr
    · cases hr
    · rename_i c s' hskip
      rw [hskip, List.length_cons] at hblank
      split at hr
      · have := shrinks_map (listing_shrinks (member_shrinks ih) n _) hr fun _ => rfl
        omega
      split at hr
      · have := shrinks_map (listing_shrinks ih n _) hr fun _ => rfl
        omega
      split at hr
      · have := shrinks_map (string_shrinks _) hr fun _ => rfl
        omega
      split at hr
      · have := shrinks_map (number_shrinks _) hr fun _ => rfl
        rw [List.length_cons] at this
        omega
      · have := literal_shrinks _ _ _ hr
        rw [List.length_cons] at this
        omega

/-- Items do not depend on fuel beyond the length of the text. -/
theorem items_fuel (hshrinks : Shrinks item) (hn : s.length < n) (hm : s.length < m)
    (h : ∀ t : Text, t.length ≤ s.length → item t = item' t) :
    items item close n s = items item' close m s := by
  induction n generalizing s m with
  | zero => omega
  | succ n ih =>
    obtain ⟨m, rfl⟩ : ∃ k, m = k + 1 := ⟨m - 1, by omega⟩
    simp only [items, ← h s le_rfl]
    cases hb : item s with
    | none => rfl
    | some x =>
      have hfirst := hshrinks _ x.1 x.2 hb
      have hblank := length_skipBlanks x.2
      simp only [Option.bind_eq_bind, Option.bind_some]
      cases hskip : skipBlanks x.2 with
      | nil => rfl
      | cons c r =>
        rw [hskip, List.length_cons] at hblank
        simp only
        have hrest := ih (s := r) (m := m) (by omega) (by omega) fun t ht => h t (by omega)
        rw [hrest]

theorem listing_fuel (hshrinks : Shrinks item) (hn : s.length < n) (hm : s.length < m)
    (h : ∀ t : Text, t.length ≤ s.length → item t = item' t) :
    listing item close n s = listing item' close m s := by
  unfold listing
  rw [items_fuel hshrinks hn hm h]

theorem member_fuel (h : ∀ t : Text, t.length ≤ s.length → item t = item' t) :
    member item s = member item' s := by
  have hblank := length_skipBlanks s
  unfold member
  cases hskip : skipBlanks s with
  | nil => rfl
  | cons c s' =>
    rw [hskip, List.length_cons] at hblank
    simp only
    split
    · cases hname : string s' with
      | none => rfl
      | some x =>
        have hstring := string_shrinks _ x.1 x.2 hname
        have hblank' := length_skipBlanks x.2
        simp only [Option.bind_eq_bind, Option.bind_some]
        cases hskip' : skipBlanks x.2 with
        | nil => rfl
        | cons c' r =>
          rw [hskip', List.length_cons] at hblank'
          simp only
          rw [h r (by omega)]
    · rfl

/-- The length of the text and one more is enough fuel: more changes nothing. -/
theorem value_fuel (hn : s.length < n) (hm : s.length < m) : value ofRat n s = value ofRat m s := by
  induction n generalizing s m with
  | zero => omega
  | succ n ih =>
    obtain ⟨m, rfl⟩ : ∃ k, m = k + 1 := ⟨m - 1, by omega⟩
    have hblank := length_skipBlanks s
    unfold value
    cases hskip : skipBlanks s with
    | nil => rfl
    | cons c r =>
      rw [hskip, List.length_cons] at hblank
      have hvalue : ∀ t : Text, t.length ≤ r.length → value ofRat n t = value ofRat m t :=
        fun t ht => ih (by omega) (by omega)
      have hmember : ∀ t : Text, t.length ≤ r.length →
          member (value ofRat n) t = member (value ofRat m) t :=
        fun t ht => member_fuel fun u hu => hvalue u (by omega)
      simp only
      rw [listing_fuel (s := r) (m := m) (member_shrinks (value_shrinks n)) (by omega) (by omega)
        hmember,
        listing_fuel (s := r) (m := m) (value_shrinks n) (by omega) (by omega) hvalue]

/-- The value of a text is what any parser with enough fuel reads. -/
theorem parse_eq (hn : s.length < n) : parse ofRat s =
    (value ofRat n s).bind fun x => if skipBlanks x.2 = [] then some x.1 else none := by
  unfold parse
  rw [value_fuel (Nat.lt_succ_self _) hn]
  rfl

end fuel

end JsonText
