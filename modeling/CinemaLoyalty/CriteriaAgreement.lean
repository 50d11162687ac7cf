import CinemaLoyalty.Criteria
import CinemaLoyalty.Lib.Strip

/-! @svc CriteriaAgreement | layer:property | source:src/achievements/validators/achievement-criteria.validator.ts, src/achievements/mappers/achievement.mapper.ts, src/achievements/processors/achievements.processor.ts

    What an admin submits, what the database holds, what the worker reads and what the admin is shown
    are the same criteria. `Normal` is what the normaliser leaves, and the fields of normal criteria
    can be shown, read back and stored in any order. -/

namespace CinemaLoyalty
open JsonText Utf16

/-! ### Strings -/

/-- A unit of a character is white space if the character is. -/
theorem units_whitespace : Strip.Uniform jsWhitespace isSpace units where
  nonempty := units_ne_nil
  units c u hu := by
    unfold isSpace
    by_cases hc : c.toNat < 0x10000
    · rw [(units_small hc).1, List.mem_singleton] at hu
      rw [hu, toNat_ofNat hc, Char.ofNat_toNat]
    · -- neither half of a pair is a character, and no white space needs a pair
      have hblank : jsWhitespace c = false := by
        rw [← Bool.not_eq_true]
        intro h
        unfold jsWhitespace at h
        simp only [Bool.or_eq_true, decide_eq_true_eq, Bool.and_eq_true] at h
        rcases h with hlist | hrange
        · simp only [List.mem_cons, List.not_mem_nil, or_false] at hlist
          rcases hlist with rfl | rfl | rfl | rfl | rfl | rfl | rfl | rfl | rfl | rfl | rfl | rfl |
            rfl | rfl <;> exact hc (by decide)
        · have hle : c.toNat ≤ 0x200a := hrange.2
          omega
      have hhalf : ∀ u : UInt16, isHigh u = true ∨ isLow u = true →
          jsWhitespace (Char.ofNat u.toNat) = false := by
        intro u hu
        have hinvalid : ¬u.toNat.isValidChar := by
          simp only [isHigh, isLow, Bool.and_eq_true, decide_eq_true_eq] at hu
          unfold Nat.isValidChar
          omega
        rw [Char.ofNat, dif_neg hinvalid]
        decide
      obtain ⟨hi, lo, hunits, hhigh, hlow, -⟩ := units_large hc
      rw [hunits, List.mem_cons, List.mem_singleton] at hu
      rcases hu with rfl | rfl
      · rw [hblank, hhalf _ (.inl hhigh)]
      · rw [hblank, hhalf _ (.inr hlow)]

/-- Trimming units is trimming characters. -/
theorem trim_ofString (s : String) : trim (ofString s) = ofString (jsTrim s) := by
  unfold jsTrim ofString encode
  rw [String.toList_ofList]
  exact Strip.strip_flatMap units_whitespace s.toList

theorem trim_idem (s : Text) : trim (trim s) = trim s := Strip.strip_idem isSpace s

/-- The length of a string is the number of its units. -/
theorem jsLength_eq (s : String) : jsLength s = (ofString s).length := by
  unfold jsLength ofString
  induction s.toList with
  | nil => rfl
  | cons c cs ih =>
    rw [List.map_cons, List.sum_cons, ih, encode_cons, List.length_append]
    congr 1
    unfold units
    split <;> rfl

/-! ### Normal criteria -/

/-- A field name the schema leaves as it is. -/
def GoodName (s : Text) : Prop := trim s = s ∧ 1 ≤ s.length ∧ s.length ≤ 64

theorem goodName_default : GoodName (ofString DEFAULT_SUM_VALUE_FIELD) := by
  unfold GoodName
  decide

/-- Criteria as the normaliser leaves them: no field name without `sum`, a good one with it. -/
structure RawAchievementCriteria.Normal (c : RawAchievementCriteria) : Prop where
  target : 0 < c.target ∧ c.target ≤ MAX_ACHIEVEMENT_TARGET
  count : c.operator ≠ .sum → c.valueField = none
  sum : c.operator = .sum → ∃ s, c.valueField = some s ∧ GoodName s

section normal
variable {v : JsValue} {c : RawAchievementCriteria}

/-- A target in its range is an integer of at most 53 bits. -/
theorem RawAchievementCriteria.Normal.target_small (h : c.Normal) : |c.target| < 2 ^ 53 := by
  obtain ⟨hpos, hmax⟩ := h.target
  rw [abs_of_pos hpos]
  exact hmax.trans_lt (by decide)

/-- A field name of normal criteria is a good one. -/
theorem RawAchievementCriteria.Normal.name {s : Text} (h : c.Normal) (hs : c.valueField = some s) :
    GoodName s := by
  by_cases hsum : c.operator = .sum
  · obtain ⟨s', hs', hgood⟩ := h.sum hsum
    rw [hs, Option.some.injEq] at hs'
    exact hs' ▸ hgood
  · rw [h.count hsum] at hs
    cases hs

theorem parseTarget_range {j : Option Json} {n : ℤ} (h : parseTarget j = some n) :
    0 < n ∧ n ≤ MAX_ACHIEVEMENT_TARGET := by
  unfold parseTarget at h
  split at h
  · simp only [Option.ite_none_right_eq_some, Option.some.injEq] at h
    obtain ⟨⟨_, hrange⟩, rfl⟩ := h
    exact hrange
  · cases h

theorem rawValueField_good {j : Option JsValue} {s : Text} (h : rawValueField j = some (some s)) :
    GoodName s := by
  unfold rawValueField at h
  split at h
  · cases h
  · simp only [Option.ite_none_right_eq_some, Option.some.injEq] at h
    obtain ⟨hlength, rfl⟩ := h
    exact ⟨trim_idem _, hlength⟩
  · cases h

/-- The schema lets through targets in their range and good field names only. -/
theorem schema_ok (h : RawAchievementCriteriaSchema v = some c) :
    (0 < c.target ∧ c.target ≤ MAX_ACHIEVEMENT_TARGET) ∧ ∀ s, c.valueField = some s → GoodName s := by
  unfold RawAchievementCriteriaSchema at h
  split at h
  · simp only [Option.bind_eq_bind, Option.bind_eq_some_iff, Option.pure_def, Option.some.injEq] at h
    obtain ⟨field, hfield, operator, hoperator, target, htarget, valueField, hvalue, rfl⟩ := h
    refine ⟨?_, ?_⟩
    · unfold rawTarget at htarget
      split at htarget
      · exact parseTarget_range htarget
      · cases htarget
    · rintro s rfl
      exact rawValueField_good hvalue
  · cases h

theorem normalizeCriteria_normal (h : RawAchievementCriteriaSchema v = some c) :
    (normalizeCriteria c).Normal := by
  obtain ⟨htarget, hname⟩ := schema_ok h
  unfold normalizeCriteria
  split
  · rename_i hcount
    exact ⟨htarget, fun _ => rfl, fun hsum => absurd hsum hcount⟩
  · rename_i hsum
    rw [not_not] at hsum
    refine ⟨htarget, fun hcount => absurd hsum hcount, fun _ => ⟨_, rfl, ?_⟩⟩
    cases hvalue : c.valueField with
    | none => exact goodName_default
    | some s => exact hname s hvalue

/-- Normal criteria are left as they are. -/
theorem normalizeCriteria_self (h : c.Normal) : normalizeCriteria c = c := by
  unfold normalizeCriteria
  split
  · rename_i hcount
    rw [← h.count hcount]
  · rename_i hsum
    obtain ⟨s, hs, _⟩ := h.sum (not_not.1 hsum)
    rw [hs, Option.getD_some, ← hs]

/-- The criteria of the worker are those they were decoded from. -/
theorem decoded_eq {criteria : AchievementCriteria} (h : c.decoded = some criteria) :
    c = { field := criteria.field
          operator := criteria.operator
          target := criteria.target
          valueField := criteria.valueField.map ofString } := by
  obtain ⟨field, operator, target, valueField⟩ := c
  unfold RawAchievementCriteria.decoded at h
  cases valueField with
  | none =>
    cases h
    rfl
  | some s =>
    obtain ⟨x, hx, rfl⟩ := Option.map_eq_some_iff.1 h
    rw [Option.map_some, ofString_toString? hx]

/-- Without `sum` an event counts for one, whatever the field name. -/
theorem increment_count (h : c.operator ≠ .sum) (event : ActionEvent) :
    c.increment event = { incrementBy := .fin 1, shouldProcess := true } := by
  unfold RawAchievementCriteria.increment
  split
  · rename_i criteria hdecoded
    rw [decoded_eq hdecoded] at h
    exact if_pos h
  · exact if_pos h

/-- The normaliser changes no increment. -/
theorem increment_normalize (c : RawAchievementCriteria) (event : ActionEvent) :
    (normalizeCriteria c).increment event = c.increment event := by
  unfold normalizeCriteria
  split
  · rename_i hcount
    rw [increment_count hcount]
    exact increment_count (c := { c with valueField := none }) hcount event
  · cases hvalue : c.valueField with
    | none =>
      unfold RawAchievementCriteria.increment RawAchievementCriteria.decoded
      simp only [hvalue, Option.getD_none, toString?_ofString, Option.map_some]
      rfl
    | some s => rw [Option.getD_some, ← hvalue]

end normal

/-! ### The object and its text -/

section shown
variable {c : RawAchievementCriteria} {shown : List (Text × JsValue)} {other : ℚ → Text}

/-- The fields of normal criteria, without the case of an empty name. -/
theorem fields_normal (h : c.Normal) : c.fields =
    [(ofString "field", .str (ofString c.field.text)),
      (ofString "operator", .str (ofString c.operator.text)),
      (ofString "target", .num (.fin c.target))] ++
      (c.valueField.map fun s => (ofString "valueField", Value.str s)).toList := by
  unfold RawAchievementCriteria.fields
  cases hs : c.valueField with
  | none => rfl
  | some s =>
    obtain ⟨-, hpos, -⟩ := h.name hs
    obtain ⟨u, s, rfl⟩ := List.exists_cons_of_ne_nil (List.length_pos_iff.1 hpos)
    rfl

theorem fields_names (h : c.Normal) : (c.fields.map (·.1)).Nodup := by
  rw [fields_normal h]
  cases c.valueField with
  | none => simp
  | some s => simp

/-- In any order the fields are those of the criteria. -/
theorem field_shown (h : c.Normal) (hshown : shown.Perm c.fields) :
    (Value.obj shown).field (ofString "field") = some (.str (ofString c.field.text)) ∧
      (Value.obj shown).field (ofString "operator") = some (.str (ofString c.operator.text)) ∧
      (Value.obj shown).field (ofString "target") = some (.num (.fin c.target)) ∧
      (Value.obj shown).field (ofString "valueField") = c.valueField.map .str := by
  have hfind := find_perm (fields_names h) hshown
  simp only [Value.field, hfind, fields_normal h]
  cases c.valueField with
  | none => simp
  | some s => simp

theorem parseEnum_ofString {α : Type} (ofText : String → Option α) (s : String) :
    parseEnum ofText (some (.str (ofString s))) = ofText s := by
  rw [parseEnum, toString?_ofString, Option.bind_some]

theorem operator_ofText (o : AchievementCriteriaOperator) :
    AchievementCriteriaOperator.ofText o.text = some o := by
  cases o <;> decide

/-- The schema reads normal criteria from their fields, in any order. -/
theorem schema_shown (h : c.Normal) (hshown : shown.Perm c.fields) :
    RawAchievementCriteriaSchema (.obj shown) = some c := by
  obtain ⟨hfield, hoperator, htarget, hvalue⟩ := field_shown h hshown
  have hparseField : parseEnum AchievementAction.ofText (some (.str (ofString c.field.text))) =
      some c.field := by
    rw [parseEnum_ofString, ofText_text]
  have hparseOperator : parseEnum AchievementCriteriaOperator.ofText
      (some (.str (ofString c.operator.text))) = some c.operator := by
    rw [parseEnum_ofString, operator_ofText]
  have hparseTarget : rawTarget (some (.num (.fin c.target))) = some c.target := by
    rw [rawTarget, parseTarget, Rat.den_intCast, Rat.num_intCast]
    exact if_pos ⟨rfl, h.target⟩
  have hparseValue : rawValueField (c.valueField.map .str) = some c.valueField := by
    cases hs : c.valueField with
    | none => rfl
    | some s =>
      obtain ⟨htrim, hlength⟩ := h.name hs
      rw [Option.map_some, rawValueField, htrim, if_pos hlength]
  unfold RawAchievementCriteriaSchema
  simp only [hfield, hoperator, htarget, hvalue, hparseField, hparseOperator, hparseTarget,
    hparseValue, Option.bind_eq_bind, Option.bind_some, Option.pure_def]

theorem readsBack_target (other : ℚ → Text) (h : c.Normal) :
    ReadsBack JsNumber.ofRat (numberText other) (.fin c.target) := by
  refine readsBack_int (k := c.target) ?_ (ofRat_int h.target_small)
  rw [numberText, Rat.den_intCast, Rat.num_intCast]
  exact if_pos ⟨rfl, h.target_small⟩

theorem readable_shown (other : ℚ → Text) (h : c.Normal) (hshown : shown.Perm c.fields) :
    Readable JsNumber.ofRat (numberText other) (.obj shown) := by
  refine .obj ((hshown.map _).nodup_iff.2 (fields_names h)) fun f hf => ?_
  rw [hshown.mem_iff, fields_normal h] at hf
  simp only [List.mem_append, List.mem_cons, List.not_mem_nil, or_false, Option.mem_toList,
    Option.map_eq_some_iff] at hf
  rcases hf with (rfl | rfl | rfl) | ⟨s, -, rfl⟩
  · exact .str _
  · exact .str _
  · exact .num (readsBack_target other h)
  · exact .str s

/-- Normal criteria shown in any order and submitted again come to the same object. -/
theorem validate_shown (issues : JsValue → String) (other : ℚ → Text) (h : c.Normal)
    (hshown : shown.Perm c.fields) :
    validateAndParseCriteriaJson issues (JSON.stringify other (.obj shown)) = .ok (.obj c.fields) := by
  unfold validateAndParseCriteriaJson JSON.stringify JSON.parse
  rw [parse_stringify (readable_shown other h hshown)]
  simp only [schema_shown h hshown, normalizeCriteria_self h]

end shown

/-! ### The column -/

section column
variable {c : RawAchievementCriteria} {criteria : AchievementCriteria} {v w : Json}

theorem storedText_iff {s : Text} {x : String} :
    storedText s = some x ↔ 0 ∉ s ∧ toString? s = some x := by
  unfold storedText
  split
  · rename_i hzero
    exact ⟨nofun, fun h => absurd hzero h.1⟩
  · rename_i hzero
    exact (and_iff_right hzero).symm

theorem storedText_ofString {s : String} (h : 0 ∉ ofString s) : storedText (ofString s) = some s :=
  storedText_iff.2 ⟨h, toString?_ofString s⟩

/-- The column holds the JSON of the worker's criteria, if it can hold the field name. -/
theorem stored_iff (h : c.Normal) : stored (.obj c.fields) = some v ↔
    (∀ s, c.valueField = some s → 0 ∉ s) ∧
      ∃ criteria, c.decoded = some criteria ∧ criteria.toJson = v := by
  have hfield : storedText (ofString c.field.text) = some c.field.text := by
    cases c.field <;> exact storedText_ofString (by decide)
  have hoperator : storedText (ofString c.operator.text) = some c.operator.text := by
    cases c.operator <;> exact storedText_ofString (by decide)
  have hnames : storedText (ofString "field") = some "field" ∧
      storedText (ofString "operator") = some "operator" ∧
      storedText (ofString "target") = some "target" ∧
      storedText (ofString "valueField") = some "valueField" :=
    ⟨storedText_ofString (by decide), storedText_ofString (by decide),
      storedText_ofString (by decide), storedText_ofString (by decide)⟩
  rw [fields_normal h]
  unfold RawAchievementCriteria.decoded
  cases hvalue : c.valueField with
  | none =>
    simp only [Option.map_none, Option.toList_none, List.append_nil, stored, storedFields, hnames,
      hfield, hoperator, Option.bind_eq_bind, Option.bind_some, Option.map_some, Option.some.injEq,
      exists_eq_left']
    exact ⟨fun hv => ⟨nofun, hv⟩, And.right⟩
  | some s =>
    simp only [Option.map_some, Option.toList_some, List.cons_append, List.nil_append, stored,
      storedFields, hnames, hfield, hoperator, Option.bind_eq_bind, Option.bind_some]
    constructor
    · intro hv
      cases hs : storedText s with
      | none =>
        rw [hs] at hv
        cases hv
      | some x =>
        obtain ⟨hzero, hx⟩ := storedText_iff.1 hs
        rw [hs] at hv
        simp only [Option.map_some, Option.bind_some, Option.some.injEq] at hv
        refine ⟨?_, ⟨c.field, c.operator, c.target, some x⟩, ?_, hv⟩
        · rintro _ ⟨⟩
          exact hzero
        · rw [hx, Option.map_some]
    · rintro ⟨hzero, criteria, hdecoded, rfl⟩
      obtain ⟨x, hx, rfl⟩ := Option.map_eq_some_iff.1 hdecoded
      rw [storedText_iff.2 ⟨hzero s rfl, hx⟩]
      rfl

theorem loadedFields_eq (fields : List (String × Json)) :
    loadedFields fields = fields.map fun f => (ofString f.1, loaded f.2) := by
  induction fields with
  | nil => rfl
  | cons f fields ih => rw [loadedFields, ih, List.map_cons]

/-- The client reads the object that was handed to the database. -/
theorem loaded_toJson (h : c.Normal) (hd : c.decoded = some criteria) :
    loaded criteria.toJson = .obj c.fields := by
  have htarget : JsNumber.ofRat (c.target : ℚ) = .fin c.target := ofRat_int h.target_small
  rw [fields_normal h]
  obtain rfl := decoded_eq hd
  cases hvalue : criteria.valueField with
  | none => simp [AchievementCriteria.toJson, loaded, loadedFields, hvalue, htarget]
  | some x => simp [AchievementCriteria.toJson, loaded, loadedFields, hvalue, htarget]

theorem toJson_names (criteria : AchievementCriteria) : ∃ fields, criteria.toJson = .obj fields ∧
    (fields.map (·.1)).Nodup := by
  refine ⟨_, rfl, ?_⟩
  cases criteria.valueField with
  | none => simp
  | some x => simp

/-- In any order the fields of the column are those of the criteria. -/
theorem field_reordered (hw : Reordered criteria.toJson w) : (∃ shown, w = .obj shown) ∧
    w.field "field" = some (.str criteria.field.text) ∧
      w.field "operator" = some (.str criteria.operator.text) ∧
      w.field "target" = some (.num criteria.target) ∧
      w.field "valueField" = criteria.valueField.map .str := by
  obtain ⟨fields, shown, hfields, rfl, hshown⟩ := hw
  obtain ⟨fields', hfields', hnames⟩ := toJson_names criteria
  obtain rfl : fields' = fields := Json.obj.inj (hfields'.symm.trans hfields)
  have hfind := find_perm hnames hshown
  refine ⟨⟨shown, rfl⟩, ?_⟩
  simp only [Json.field, hfind, ← Json.obj.inj hfields]
  cases criteria.valueField with
  | none => simp
  | some x => simp

/-- A good name is good to the worker's schema. -/
theorem parseValueField_good {x : String} (h : GoodName (ofString x)) :
    parseValueField (some (.str x)) = some (some x) := by
  obtain ⟨htrim, hlength⟩ := h
  rw [trim_ofString] at htrim
  rw [parseValueField, ofString_inj.1 htrim, jsLength_eq, if_pos hlength]

/-- The worker's schema reads the criteria from the column, whatever the order of the keys. -/
theorem worker_reads (h : c.Normal) (hd : c.decoded = some criteria)
    (hw : Reordered criteria.toJson w) : parseAchievementCriteria w = some criteria := by
  obtain ⟨⟨shown, rfl⟩, hfield, hoperator, htarget, hvalue⟩ := field_reordered hw
  obtain rfl := decoded_eq hd
  have hparseTarget : parseTarget (some (.num criteria.target)) = some criteria.target := by
    rw [parseTarget, Rat.den_intCast, Rat.num_intCast]
    exact if_pos ⟨rfl, h.target⟩
  have hparseValue : parseValueField (criteria.valueField.map .str) = some criteria.valueField := by
    cases hx : criteria.valueField with
    | none => rfl
    | some x => exact parseValueField_good (h.name (by rw [hx, Option.map_some]))
  unfold parseAchievementCriteria
  simp only [hfield, hoperator, htarget, hvalue, ofText_text, operator_ofText, hparseTarget,
    hparseValue, Option.bind_eq_bind, Option.bind_some, Option.pure_def]

/-- The worker counts an event as the criteria it decoded do. -/
theorem increment_decoded (hd : c.decoded = some criteria) (event : ActionEvent) :
    calculateAchievementProgressIncrement criteria event = c.increment event := by
  rw [RawAchievementCriteria.increment, hd]

/-- What the admin is shown of the column comes to the same object when submitted again. -/
theorem validate_column (issues : JsValue → String) (other : ℚ → Text) (h : c.Normal)
    (hd : c.decoded = some criteria) (hw : Reordered criteria.toJson w) :
    validateAndParseCriteriaJson issues (toGrpcCriteriaJson other w) = .ok (.obj c.fields) := by
  have hloaded := loaded_toJson h hd
  obtain ⟨fields, shown, hfields, rfl, hshown⟩ := hw
  rw [hfields, loaded, Value.obj.injEq] at hloaded
  have hperm : (loadedFields shown).Perm c.fields := by
    rw [← hloaded, loadedFields_eq, loadedFields_eq]
    exact hshown.map _
  rw [toGrpcCriteriaJson, loaded]
  exact validate_shown issues other h hperm

end column

/-- Of every text the validator accepts: the object handed to the database is the criteria its own
    schema reads from it, with the increments of the submitted criteria, and comes to itself when its
    text is submitted; and what the column gives back, in any order of its keys, is read by the worker
    as the value stored, with those increments, and is stored again when the admin submits what they
    are shown. -/
theorem criteria_agree {issues : JsValue → String} {text : Text} {value : JsValue} (other : ℚ → Text)
    (h : validateAndParseCriteriaJson issues text = .ok value) :
    ∃ submitted, (JSON.parse text).bind RawAchievementCriteriaSchema = some submitted ∧
      (∃ criteria, RawAchievementCriteriaSchema value = some criteria ∧ .obj criteria.fields = value ∧
        ∀ event, criteria.increment event = submitted.increment event) ∧
      validateAndParseCriteriaJson issues (JSON.stringify other value) = .ok value ∧
      ∀ v w, stored value = some v → Reordered v w →
        (∃ criteria, parseAchievementCriteria w = some criteria ∧ criteria.toJson = v ∧
          ∀ event, calculateAchievementProgressIncrement criteria event =
            submitted.increment event) ∧
        validateAndParseCriteriaJson issues (toGrpcCriteriaJson other w) = .ok value := by
  unfold validateAndParseCriteriaJson at h
  split at h
  · cases h
  rename_i parsed hparsed
  split at h
  · cases h
  rename_i submitted hsubmitted
  cases h
  have hnormal := normalizeCriteria_normal hsubmitted
  have hincrement := increment_normalize submitted
  refine ⟨submitted, by rw [hparsed, Option.bind_some, hsubmitted],
    ⟨_, schema_shown hnormal (.refl _), rfl, hincrement⟩,
    validate_shown issues other hnormal (.refl _), ?_⟩
  intro v w hv hw
  obtain ⟨-, criteria, hdecoded, rfl⟩ := (stored_iff hnormal).1 hv
  refine ⟨⟨criteria, worker_reads hnormal hdecoded hw, rfl, fun event => ?_⟩,
    validate_column issues other hnormal hdecoded hw⟩
  rw [increment_decoded hdecoded, hincrement]

/-- Criteria submitted in an order of their own, with blanks around the field name. -/
theorem criteria_agree_stars :
    let text := "\x7b\"target\":3,\"operator\":\"sum\",\"field\":\"REVIEW_LEFT\"," ++
      "\"valueField\":\" stars \"\x7d"
    let criteria : AchievementCriteria :=
      { field := .REVIEW_LEFT, operator := .sum, target := 3, valueField := some "stars" }
    ∃ value, validateAndParseCriteriaJson (fun _ => "") (ofString text) = .ok value ∧
      stored value = some criteria.toJson ∧ parseAchievementCriteria criteria.toJson = some criteria ∧
      validateAndParseCriteriaJson (fun _ => "")
        (toGrpcCriteriaJson (fun _ => []) criteria.toJson) = .ok value := by
  intro text criteria
  let submitted : List (Text × JsValue) :=
    [(ofString "target", .num (.fin 3)), (ofString "operator", .str (ofString "sum")),
      (ofString "field", .str (ofString "REVIEW_LEFT")),
      (ofString "valueField", .str (ofString " stars "))]
  let c : RawAchievementCriteria :=
    { field := .REVIEW_LEFT, operator := .sum, target := 3, valueField := some (ofString "stars") }
  have htext : ofString text = JSON.stringify (fun _ => []) (.obj submitted) := by decide +kernel
  have hthree : ReadsBack JsNumber.ofRat (numberText fun _ => []) (.fin 3) :=
    readsBack_int (k := 3) (by decide) (ofRat_int (by decide))
  have hparse : JSON.parse (ofString text) = some (.obj submitted) := by
    rw [htext]
    refine parse_stringify (.obj (by decide) fun f hf => ?_)
    simp only [submitted, List.mem_cons, List.not_mem_nil, or_false] at hf
    rcases hf with rfl | rfl | rfl | rfl
    · exact .num hthree
    all_goals exact .str _
  have hschema : RawAchievementCriteriaSchema (.obj submitted) = some c := by decide +kernel
  have hreads : validateAndParseCriteriaJson (fun _ => "") (ofString text) = .ok (.obj c.fields) := by
    unfold validateAndParseCriteriaJson
    simp only [hparse, hschema]
    rfl
  have hstored : stored (.obj c.fields) = some criteria.toJson := by
    have hnormal : c.Normal := normalizeCriteria_normal hschema
    refine (stored_iff hnormal).2 ⟨?_, criteria, ?_, rfl⟩
    · rintro _ ⟨⟩
      decide
    · simp only [RawAchievementCriteria.decoded, c, toString?_ofString, Option.map_some, criteria]
  obtain ⟨_, _, _, _, hcolumn⟩ := criteria_agree (fun _ => []) hreads
  have hagain := (hcolumn _ _ hstored ⟨_, _, rfl, rfl, .refl _⟩).2
  exact ⟨_, hreads, hstored, by decide +kernel, hagain⟩

end CinemaLoyalty
