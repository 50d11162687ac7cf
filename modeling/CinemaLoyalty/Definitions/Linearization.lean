import CinemaLoyalty.Definitions.Service

/-! @svc DefinitionLinearization | layer:property | source:src/achievements/admin-achievements.service.ts

    Concurrent admin calls against calls that run alone. Each writing statement has its spec lemma; a
    table stays `Sound` under all of them, since the unique index is on the column the calls compare.
    A call is decided at its last statement: whatever it looked up before only says that the id is
    there, and ids never leave the table. -/

namespace CinemaLoyalty
open Utf16 Txn

/-! ### Tables -/

theorem columns_code {input : NormalizedAchievementInput} {columns : AchievementColumns}
    (h : input.columns = some columns) : columns.code = input.code := by
  unfold NormalizedAchievementInput.columns at h
  simp only [Option.bind_eq_bind, Option.bind_eq_some_iff, Option.ite_none_right_eq_some,
    Option.some.injEq] at h
  obtain ⟨_, -, -, rfl⟩ := h
  rfl

/-- A table as the calls leave it: ids and codes are distinct, and every definition is valid. -/
structure AchievementTable.Sound (t : AchievementTable) : Prop where
  ids : (t.map (·.id)).Nodup
  codes : (t.map (·.code)).Nodup
  valid : ∀ a ∈ t, a.toAchievementColumns.Valid

namespace AchievementTable
variable {t : AchievementTable} {row a : AchievementRecord} {id : Uuid}

theorem row?_some (h : t.row? id = some a) : a ∈ t ∧ a.id = id :=
  ⟨List.mem_of_find?_eq_some h, by simpa using List.find?_some h⟩

theorem row?_isSome : (t.row? id).isSome = true ↔ ∃ a ∈ t, a.id = id := by
  simp [row?, List.find?_isSome]

theorem row?_none (h : t.row? id = none) : ∀ a ∈ t, a.id ≠ id := by
  simpa [row?] using h

/-- With distinct ids a row is the row of its id. -/
theorem row?_mem (hids : (t.map (·.id)).Nodup) (h : a ∈ t) : t.row? a.id = some a := by
  obtain ⟨b, hb⟩ := Option.isSome_iff_exists.1 (row?_isSome.2 ⟨a, h, rfl⟩)
  obtain ⟨hmem, hid⟩ := row?_some hb
  rw [hb, List.inj_on_of_nodup_map hids hmem h hid]

theorem row?_insert (h : t.row? row.id = none) (id : Uuid) :
    (t.apply (.insert row)).row? id = if id = row.id then some row else t.row? id := by
  unfold row? at h ⊢
  rw [apply, List.find?_append]
  by_cases hid : id = row.id
  · rw [if_pos hid, hid, h]
    simp
  · rw [if_neg hid, List.find?_singleton, if_neg (by simpa using Ne.symm hid), Option.or_none]

theorem row?_put (id : Uuid) : (t.apply (.put row)).row? id =
    if id = row.id then (t.row? id).map fun _ => row else t.row? id := by
  unfold row?
  rw [apply, List.find?_map]
  have hsame : (fun a : AchievementRecord => decide (a.id = id)) ∘
      (fun a => if a.id = row.id then row else a) = fun a => decide (a.id = id) := by
    funext a
    by_cases ha : a.id = row.id <;> simp [ha]
  rw [hsame]
  cases hfind : t.find? (·.id = id) with
  | none => simp
  | some a =>
    have ha : a.id = id := (row?_some hfind).2
    by_cases hid : id = row.id <;> simp [ha, hid]

theorem row?_put_self (h : t.row? row.id = some a) :
    (t.apply (.put row)).row? row.id = some row := by
  rw [row?_put, if_pos rfl, h]
  rfl

theorem row?_put_other (h : id ≠ row.id) : (t.apply (.put row)).row? id = t.row? id := by
  rw [row?_put, if_neg h]

theorem Sound.insert (hs : t.Sound) (hcode : ∀ a ∈ t, a.code ≠ row.code) (hid : t.row? row.id = none)
    (hv : row.toAchievementColumns.Valid) : (t.apply (.insert row)).Sound where
  ids := by
    simp only [apply, List.map_append, List.map_cons, List.map_nil]
    refine List.nodup_append.2 ⟨hs.ids, by simp, ?_⟩
    rintro x hx y hy rfl
    obtain ⟨a, ha, rfl⟩ := List.mem_map.1 hx
    exact row?_none hid a ha (List.mem_singleton.1 hy)
  codes := by
    simp only [apply, List.map_append, List.map_cons, List.map_nil]
    refine List.nodup_append.2 ⟨hs.codes, by simp, ?_⟩
    rintro x hx y hy rfl
    obtain ⟨a, ha, rfl⟩ := List.mem_map.1 hx
    exact hcode a ha (List.mem_singleton.1 hy)
  valid a ha := by
    rcases List.mem_append.1 ha with ha | ha
    · exact hs.valid a ha
    · exact List.mem_singleton.1 ha ▸ hv

theorem put_ids : (t.apply (.put row)).map (·.id) = t.map (·.id) := by
  rw [apply, List.map_map]
  refine List.map_congr_left fun a _ => ?_
  by_cases ha : a.id = row.id <;> simp [ha]

theorem Sound.put (hs : t.Sound) (hcode : ∀ a ∈ t, a.code = row.code → a.id = row.id)
    (hv : row.toAchievementColumns.Valid) : (t.apply (.put row)).Sound where
  ids := by
    rw [put_ids]
    exact hs.ids
  codes := by
    rw [apply, List.map_map]
    refine List.Nodup.map_on ?_ hs.ids.of_map
    intro a ha b hb hab
    simp only [Function.comp_apply] at hab
    by_cases hida : a.id = row.id <;> by_cases hidb : b.id = row.id
    · exact List.inj_on_of_nodup_map hs.ids ha hb (hida.trans hidb.symm)
    · rw [if_pos hida, if_neg hidb] at hab
      exact absurd (hcode b hb hab.symm) hidb
    · rw [if_neg hida, if_pos hidb] at hab
      exact absurd (hcode a ha hab) hida
    · rw [if_neg hida, if_neg hidb] at hab
      exact List.inj_on_of_nodup_map hs.codes ha hb hab
  valid a ha := by
    obtain ⟨b, hb, rfl⟩ := List.mem_map.1 ha
    by_cases hid : b.id = row.id
    · rwa [if_pos hid]
    · rw [if_neg hid]
      exact hs.valid b hb

/-! ### Statements -/

theorem create_ok {data : NormalizedAchievementInput} {now : Instant} {b : AchievementRecord}
    {ws : List DefinitionWrite} (h : t.eval (.create id data now) = .ok (b, ws)) :
    ∃ columns, data.columns = some columns ∧ (∀ a ∈ t, a.code ≠ columns.code) ∧ t.row? id = none ∧
      b = { columns with id, createdAt := now, updatedAt := now } ∧ ws = [.insert b] := by
  simp only [eval] at h
  split at h
  · cases h
  · rename_i columns hcolumns
    split at h
    · cases h
    · rename_i hfree
      cases h
      simp only [Bool.or_eq_true, List.any_eq_true, decide_eq_true_eq, not_or, not_exists, not_and,
        Bool.not_eq_true, Option.isSome_eq_false_iff, Option.isNone_iff_eq_none] at hfree
      exact ⟨columns, hcolumns, hfree.1, hfree.2, rfl, rfl⟩

theorem create_error {data : NormalizedAchievementInput} {now : Instant} {e : TxError}
    (h : t.eval (.create id data now) = .error e) :
    e = .prisma (if data.columns = none then .validation else .P2002) := by
  simp only [eval] at h
  split at h
  · rename_i hcolumns
    cases h
    rw [if_pos hcolumns]
  · rename_i columns hcolumns
    split at h
    · cases h
      rw [if_neg (by rw [hcolumns]; exact Option.some_ne_none _)]
    · cases h

theorem update_ok {data : NormalizedAchievementInput} {now : Instant} {b : AchievementRecord}
    {ws : List DefinitionWrite} (h : t.eval (.update id data now) = .ok (b, ws)) :
    ∃ columns found, data.columns = some columns ∧ t.row? id = some found ∧
      (∀ a ∈ t, a.code = columns.code → a.id = id) ∧
      b = { columns with id, createdAt := found.createdAt, updatedAt := now } ∧ ws = [.put b] := by
  simp only [eval] at h
  split at h
  · cases h
  · cases h
  · rename_i found columns hfound hcolumns
    split at h
    · cases h
    · rename_i hfree
      cases h
      refine ⟨columns, found, hcolumns, hfound, fun a ha hcode => ?_, rfl, rfl⟩
      by_contra hne
      exact hfree (List.any_eq_true.2 ⟨a, ha, by simp [hne, hcode]⟩)

theorem update_error {data : NormalizedAchievementInput} {now : Instant} {e : TxError}
    (hid : (t.row? id).isSome = true) (h : t.eval (.update id data now) = .error e) :
    e = .prisma (if data.columns = none then .validation else .P2002) := by
  simp only [eval] at h
  split at h
  · rename_i hnone
    rw [hnone] at hid
    cases hid
  · rename_i hcolumns
    cases h
    rw [if_pos hcolumns]
  · rename_i found columns hfound hcolumns
    split at h
    · cases h
      rw [if_neg (by rw [hcolumns]; exact Option.some_ne_none _)]
    · cases h

/-- An update goes through where no other row has the code. -/
theorem update_free {data : NormalizedAchievementInput} {columns : AchievementColumns}
    {found : AchievementRecord} (now : Instant) (hcolumns : data.columns = some columns)
    (hfound : t.row? id = some found) (hfree : ∀ a ∈ t, a.code = columns.code → a.id = id) :
    let row : AchievementRecord := { columns with id, createdAt := found.createdAt, updatedAt := now }
    t.eval (.update id data now) = .ok (row, [.put row]) := by
  have hnone : ¬(t.any fun a => a.id ≠ id && a.code = columns.code) = true := by
    rw [List.any_eq_true]
    rintro ⟨a, ha, htaken⟩
    simp only [ne_eq, decide_not, Bool.and_eq_true, Bool.not_eq_true', decide_eq_false_iff_not,
      decide_eq_true_eq] at htaken
    exact htaken.1 (hfree a ha htaken.2)
  simp only [eval, hfound, hcolumns, if_neg hnone]

theorem deactivate_ok {now : Instant} {b : AchievementRecord} {ws : List DefinitionWrite}
    (h : t.eval (.deactivate id now) = .ok (b, ws)) :
    ∃ found, t.row? id = some found ∧ b = { found with isActive := false, updatedAt := now } ∧
      ws = [.put b] := by
  simp only [eval] at h
  split at h
  · cases h
  · rename_i found hfound
    cases h
    exact ⟨found, hfound, rfl, rfl⟩

theorem deactivate_found {found : AchievementRecord} (now : Instant)
    (hfound : t.row? id = some found) :
    let row : AchievementRecord := { found with isActive := false, updatedAt := now }
    t.eval (.deactivate id now) = .ok (row, [.put row]) := by
  simp only [eval, hfound]

/-- No statement removes an id, and none changes when a definition was created. -/
theorem eval_keeps {β : Type} {s : DefinitionStmt β} {b : β} {ws : List DefinitionWrite}
    (h : t.eval s = .ok (b, ws)) (ha : t.row? id = some a) :
    ∃ a', (definitions.view t ws).row? id = some a' ∧ a'.createdAt = a.createdAt := by
  cases s with
  | findUniqueCode code => cases h; exact ⟨a, ha, rfl⟩
  | findUnique id' => cases h; exact ⟨a, ha, rfl⟩
  | create id' data now =>
    obtain ⟨columns, -, -, hnew, rfl, rfl⟩ := create_ok h
    refine ⟨a, ?_, rfl⟩
    have hne : id ≠ id' := by
      rintro rfl
      rw [hnew] at ha
      cases ha
    exact (row?_insert (t := t) hnew id).trans ((if_neg hne).trans ha)
  | update id' data now =>
    obtain ⟨columns, found, -, hfound, -, rfl, rfl⟩ := update_ok h
    by_cases hid : id = id'
    · subst hid
      obtain rfl := Option.some.inj (hfound.symm.trans ha)
      exact ⟨_, row?_put_self hfound, rfl⟩
    · exact ⟨a, (row?_put_other hid).trans ha, rfl⟩
  | deactivate id' now =>
    obtain ⟨found, hfound, rfl, rfl⟩ := deactivate_ok h
    obtain rfl : found.id = id' := (row?_some hfound).2
    by_cases hid : id = found.id
    · subst hid
      obtain rfl := Option.some.inj (hfound.symm.trans ha)
      exact ⟨_, row?_put_self hfound, rfl⟩
    · have hother : (t.apply (.put { found with isActive := false, updatedAt := now })).row? id =
          t.row? id := row?_put_other hid
      exact ⟨a, hother.trans ha, rfl⟩

end AchievementTable

/-! ### Calls -/

section calls
variable {issues : JsValue → String} {other : ℚ → Text} {t : AchievementTable}
open AdminAchievementsService

/-- Where a call stands before a statement, and what it knows of the table: of the rows it has seen
    only that the id is there. -/
inductive Position (issues : JsValue → String) (other : ℚ → Text) (t : AchievementTable) :
    DefinitionCall → Prog DefinitionStmt TxError AchievementDto → Prop
  | creating {id : Uuid} {now : Instant} {req : AchievementMutationRequest}
      {input : NormalizedAchievementInput} (hin : normalizeAchievementInput issues req = .ok input) :
      Position issues other t (.create id now req)
        (.stmt (.findUniqueCode input.code) (insertUnlessTaken other id now input))
  | inserting {id : Uuid} {now : Instant} {req : AchievementMutationRequest}
      {input : NormalizedAchievementInput} (hin : normalizeAchievementInput issues req = .ok input) :
      Position issues other t (.create id now req)
        (.stmt (.create id input now) fun created => .pure (toGrpc other created))
  | updating {id : UuidText} {now : Instant} {req : AchievementMutationRequest} :
      Position issues other t (.update id now req)
        (.stmt (.findUnique id.value) (saveFound issues other id now req))
  | checking {id : UuidText} {now : Instant} {req : AchievementMutationRequest}
      {input : NormalizedAchievementInput} (hin : normalizeAchievementInput issues req = .ok input)
      (hid : (t.row? id.value).isSome = true) : Position issues other t (.update id now req)
        (.stmt (.findUniqueCode input.code) (saveUnlessTaken other id.value now input))
  | saving {id : UuidText} {now : Instant} {req : AchievementMutationRequest}
      {input : NormalizedAchievementInput} (hin : normalizeAchievementInput issues req = .ok input)
      (hid : (t.row? id.value).isSome = true) : Position issues other t (.update id now req)
        (.stmt (.update id.value input now) fun updated => .pure (toGrpc other updated))
  | deleting {id : UuidText} {now : Instant} : Position issues other t (.delete id now)
        (.stmt (.findUnique id.value) (deactivateFound other id now))
  | deactivating {id : UuidText} {now : Instant} (hid : (t.row? id.value).isSome = true) :
      Position issues other t (.delete id now)
        (.stmt (.deactivate id.value now) fun updated => .pure (toGrpc other updated))

/-- The others leave a position as it is. -/
theorem Position.stable {call : DefinitionCall} {p : Prog DefinitionStmt TxError AchievementDto}
    {β : Type} {s : DefinitionStmt β} {b : β} {ws : List DefinitionWrite}
    (he : t.eval s = .ok (b, ws)) (h : Position issues other t call p) :
    Position issues other (definitions.view t ws) call p := by
  have hkeeps : ∀ id, (t.row? id).isSome = true → ((definitions.view t ws).row? id).isSome = true := by
    intro id hid
    obtain ⟨a, ha⟩ := Option.isSome_iff_exists.1 hid
    obtain ⟨a', ha', -⟩ := AchievementTable.eval_keeps he ha
    rw [ha']
    rfl
  cases h with
  | creating hin => exact .creating hin
  | inserting hin => exact .inserting hin
  | updating => exact .updating
  | checking hin hid => exact .checking hin (hkeeps _ hid)
  | saving hin hid => exact .saving hin (hkeeps _ hid)
  | deleting => exact .deleting
  | deactivating hid => exact .deactivating (hkeeps _ hid)

/-! ### Calls alone -/

/-- The lookup of a code. -/
theorem lookup_some {code : String} {found : Uuid}
    (h : (t.find? (·.code = code)).map (·.id) = some found) : ∃ a ∈ t, a.code = code := by
  obtain ⟨a, ha, -⟩ := Option.map_eq_some_iff.1 h
  exact ⟨a, List.mem_of_find?_eq_some ha, by simpa using List.find?_some ha⟩

theorem lookup_taken {code : String} {a : AchievementRecord} (ha : a ∈ t) (hcode : a.code = code) :
    ∃ found, (t.find? (·.code = code)).map (·.id) = some found := by
  rw [← Option.isSome_iff_exists, Option.isSome_map, List.find?_isSome]
  exact ⟨a, ha, decide_eq_true hcode⟩

theorem lookup_none {code : String} (h : ∀ a ∈ t, a.code ≠ code) :
    (t.find? (·.code = code)).map (·.id) = none := by
  rw [Option.map_eq_none_iff, List.find?_eq_none]
  exact fun a ha => by simpa using h a ha

section alone
variable {id : Uuid} {uid : UuidText} {now : Instant} {req : AchievementMutationRequest}
  {input : NormalizedAchievementInput} {found : AchievementRecord}

theorem run_findUniqueCode {code : String} {k : Option Uuid → Prog DefinitionStmt TxError AchievementDto} :
    definitions.run (.stmt (.findUniqueCode code) k) t =
      definitions.run (k ((t.find? (·.code = code)).map (·.id))) t := rfl

theorem run_findUnique {k : Option AchievementRecord → Prog DefinitionStmt TxError AchievementDto} :
    definitions.run (.stmt (.findUnique id) k) t = definitions.run (k (t.row? id)) t := rfl

/-- A create of a code that is there is refused. -/
theorem run_create_taken (hin : normalizeAchievementInput issues req = .ok input)
    (h : ∃ a ∈ t, a.code = input.code) :
    definitions.run ((DefinitionCall.create id now req).prog issues other) t =
      .error (codeTaken input.code) := by
  obtain ⟨a, ha, hcode⟩ := h
  obtain ⟨found, hfound⟩ := lookup_taken ha hcode
  simp only [DefinitionCall.prog, AdminAchievementsService.createAchievementGrpc, hin]
  rw [run_findUniqueCode, hfound]
  rfl

/-- A create of any other code inserts. -/
theorem run_create_free (hin : normalizeAchievementInput issues req = .ok input)
    (h : ∀ a ∈ t, a.code ≠ input.code) :
    definitions.run ((DefinitionCall.create id now req).prog issues other) t =
      definitions.run (.stmt (.create id input now) fun created => .pure (toGrpc other created)) t := by
  simp only [DefinitionCall.prog, AdminAchievementsService.createAchievementGrpc, hin]
  rw [run_findUniqueCode, lookup_none h]
  rfl

/-- An update of a row to a code of another is refused. -/
theorem run_update_taken (hin : normalizeAchievementInput issues req = .ok input)
    (hfound : t.row? uid.value = some found) (hcode : found.code ≠ input.code)
    (h : ∃ a ∈ t, a.code = input.code) :
    definitions.run ((DefinitionCall.update uid now req).prog issues other) t =
      .error (codeTaken input.code) := by
  obtain ⟨a, ha, hacode⟩ := h
  obtain ⟨id, hid⟩ := lookup_taken ha hacode
  simp only [DefinitionCall.prog, AdminAchievementsService.updateAchievementGrpc]
  rw [run_findUnique, hfound]
  unfold saveFound
  simp only [hin, if_pos hcode.symm]
  rw [run_findUniqueCode, hid]
  rfl

/-- Any other update of a row saves. -/
theorem run_update_free (hin : normalizeAchievementInput issues req = .ok input)
    (hfound : t.row? uid.value = some found)
    (h : found.code = input.code ∨ ∀ a ∈ t, a.code ≠ input.code) :
    definitions.run ((DefinitionCall.update uid now req).prog issues other) t =
      definitions.run (save other uid.value now input) t := by
  simp only [DefinitionCall.prog, AdminAchievementsService.updateAchievementGrpc]
  rw [run_findUnique, hfound]
  unfold saveFound
  by_cases hcode : input.code ≠ found.code
  · simp only [hin, if_pos hcode]
    rw [run_findUniqueCode, lookup_none (h.resolve_left hcode.symm)]
    rfl
  · simp only [hin, if_neg hcode]

end alone

/-! ### Decided calls -/

/-- What a statement of a call comes to: the table stays sound; at its last statement the call has
    done its step, before it nothing has changed. -/
def Decides (issues : JsValue → String) (other : ℚ → Text) (t t' : AchievementTable)
    (call : DefinitionCall) (p : Prog DefinitionStmt TxError AchievementDto) : Prop :=
  t'.Sound ∧ (∀ r, p.result? = some r → t.Does issues other call r t') ∧
    (p.result? = none → t' = t ∧ Position issues other t' call p)

theorem decides_throw {call : DefinitionCall} {e : TxError} (hs : t.Sound)
    (h : t.Does issues other call (.error e) t) : Decides issues other t t call (.throw e) := by
  refine ⟨hs, ?_, nofun⟩
  rintro r ⟨⟩
  exact h

theorem decides_pure {t' : AchievementTable} {call : DefinitionCall} {dto : AchievementDto}
    (hs : t'.Sound) (h : t.Does issues other call (.ok dto) t') :
    Decides issues other t t' call (.pure dto) := by
  refine ⟨hs, ?_, nofun⟩
  rintro r ⟨⟩
  exact h

theorem decides_stmt {call : DefinitionCall} {β : Type} {s : DefinitionStmt β}
    {k : β → Prog DefinitionStmt TxError AchievementDto} (hs : t.Sound)
    (h : Position issues other t call (.stmt s k)) : Decides issues other t t call (.stmt s k) :=
  ⟨hs, nofun, fun _ => ⟨rfl, h⟩⟩

@[simp] theorem definitions_view_one (w : DefinitionWrite) : definitions.view t [w] = t.apply w := rfl

/-- A create that goes through is what it would be alone. -/
theorem decides_insert {id : Uuid} {now : Instant} {req : AchievementMutationRequest}
    {input : NormalizedAchievementInput} {b : AchievementRecord} {ws : List DefinitionWrite}
    (hs : t.Sound) (hin : normalizeAchievementInput issues req = .ok input)
    (he : t.eval (.create id input now) = .ok (b, ws)) :
    Decides issues other t (definitions.view t ws) (.create id now req) (.pure (toGrpc other b)) := by
  have heval : definitions.eval (.create id input now) t = .ok (b, ws) := he
  obtain ⟨columns, hcolumns, hfree, hnew, rfl, rfl⟩ := AchievementTable.create_ok he
  refine decides_pure (AchievementTable.Sound.insert hs hfree hnew (columns_valid hin hcolumns)) ?_
  have hcode : ∀ a ∈ t, a.code ≠ input.code := fun a ha => columns_code hcolumns ▸ hfree a ha
  refine .answers ?_
  rw [run_create_free hin hcode, definitions.run_stmt_ok heval]
  rfl

/-- An update that goes through is what it would be alone. -/
theorem decides_save {id : UuidText} {now : Instant} {req : AchievementMutationRequest}
    {input : NormalizedAchievementInput} {b : AchievementRecord} {ws : List DefinitionWrite}
    (hs : t.Sound) (hin : normalizeAchievementInput issues req = .ok input)
    (he : t.eval (.update id.value input now) = .ok (b, ws)) :
    Decides issues other t (definitions.view t ws) (.update id now req) (.pure (toGrpc other b)) := by
  have heval : definitions.eval (.update id.value input now) t = .ok (b, ws) := he
  obtain ⟨columns, found, hcolumns, hfound, hfree, rfl, rfl⟩ := AchievementTable.update_ok he
  refine decides_pure (AchievementTable.Sound.put hs hfree (columns_valid hin hcolumns)) ?_
  have hcode : found.code = input.code ∨ ∀ a ∈ t, a.code ≠ input.code := by
    by_contra hno
    rw [not_or, not_forall] at hno
    obtain ⟨hne, a, ha⟩ := hno
    rw [Classical.not_imp, not_not] at ha
    -- the row with the code is the row itself
    have hid := hfree a ha.1 (ha.2.trans (columns_code hcolumns).symm)
    have hrow := AchievementTable.row?_mem hs.ids ha.1
    rw [hid, hfound] at hrow
    exact hne (Option.some.inj hrow ▸ ha.2)
  refine .answers ?_
  rw [run_update_free hin hfound hcode]
  unfold save
  rw [definitions.run_stmt_ok heval]
  rfl

theorem decides_deactivate {id : UuidText} {now : Instant} {b : AchievementRecord}
    {ws : List DefinitionWrite} (hs : t.Sound)
    (he : t.eval (.deactivate id.value now) = .ok (b, ws)) :
    Decides issues other t (definitions.view t ws) (.delete id now) (.pure (toGrpc other b)) := by
  have heval : definitions.eval (.deactivate id.value now) t = .ok (b, ws) := he
  obtain ⟨found, hfound, rfl, rfl⟩ := AchievementTable.deactivate_ok he
  obtain ⟨hmem, hid⟩ := AchievementTable.row?_some hfound
  have hcode : ∀ a ∈ t, a.code = found.code → a.id = found.id := fun a ha h => by
    rw [List.inj_on_of_nodup_map hs.codes ha hmem h]
  have hvalid : ({ found with isActive := false } : AchievementColumns).Valid :=
    { hs.valid found hmem with }
  refine decides_pure (AchievementTable.Sound.put hs hcode hvalid) ?_
  cases hactive : found.isActive with
  | true =>
    refine .answers ?_
    simp only [DefinitionCall.prog, AdminAchievementsService.deleteAchievementGrpc]
    rw [run_findUnique, hfound]
    unfold deactivateFound
    simp only [hactive, Bool.not_true, Bool.false_eq_true, if_false]
    rw [definitions.run_stmt_ok heval]
    rfl
  | false =>
    have hagain : t.Does issues other (.delete id now) _ _ := .again hfound hactive
    have hsame : ({ found with isActive := false, updatedAt := now } : AchievementRecord) =
        { found with updatedAt := now } := by rw [← hactive]
    rw [hsame, definitions_view_one]
    exact hagain

/-- A call that its lookup of the code ends. -/
theorem decides_taken {id : UuidText} {now : Instant} {req : AchievementMutationRequest}
    {input : NormalizedAchievementInput} (hs : t.Sound) (hid : (t.row? id.value).isSome = true)
    (hin : normalizeAchievementInput issues req = .ok input) (h : ∃ a ∈ t, a.code = input.code) :
    Decides issues other t t (.update id now req) (.throw (codeTaken input.code)) := by
  obtain ⟨found, hfound⟩ := Option.isSome_iff_exists.1 hid
  refine decides_throw hs ?_
  by_cases hcode : found.code = input.code
  · exact .renamed hin hfound hcode
  · exact .refuses (run_update_taken hin hfound hcode h)

/-- A call that its first read ends answers as it would alone. -/
theorem decides_missing {call : DefinitionCall} {id : UuidText} (hs : t.Sound)
    (h : t.row? id.value = none)
    (hcall : (∃ now req, call = .update id now req) ∨ ∃ now, call = .delete id now) :
    Decides issues other t t call (.throw (achievementNotFound id)) := by
  refine decides_throw hs (.refuses ?_)
  rcases hcall with ⟨now, req, rfl⟩ | ⟨now, rfl⟩
  · simp only [DefinitionCall.prog, AdminAchievementsService.updateAchievementGrpc]
    rw [run_findUnique, h]
    rfl
  · simp only [DefinitionCall.prog, AdminAchievementsService.deleteAchievementGrpc]
    rw [run_findUnique, h]
    rfl

/-- Every statement that answers decides its call or leaves it at its next position. -/
theorem position_answers {call : DefinitionCall} {β : Type} {s : DefinitionStmt β}
    {k : β → Prog DefinitionStmt TxError AchievementDto} {b : β} {ws : List DefinitionWrite}
    (hs : t.Sound) (h : Position issues other t call (.stmt s k)) (he : t.eval s = .ok (b, ws)) :
    Decides issues other t (definitions.view t ws) call (k b) := by
  cases h with
  | @creating id now req input hin =>
    cases he
    cases hfind : (t.find? (·.code = input.code)).map (·.id) with
    | none => exact decides_stmt hs (.inserting hin)
    | some found => exact decides_throw hs (.refuses (run_create_taken hin (lookup_some hfind)))
  | inserting hin => exact decides_insert hs hin he
  | @updating id now req =>
    cases he
    cases hfind : t.row? id.value with
    | none => exact decides_missing hs hfind (.inl ⟨now, req, rfl⟩)
    | some found =>
      have hid : (t.row? id.value).isSome = true := by
        rw [hfind]
        rfl
      unfold saveFound
      cases hin : normalizeAchievementInput issues req with
      | error e =>
        refine decides_throw hs (.refuses ?_)
        simp only [DefinitionCall.prog, AdminAchievementsService.updateAchievementGrpc]
        rw [run_findUnique, hfind]
        unfold saveFound
        rw [hin]
        rfl
      | ok input =>
        by_cases hcode : input.code ≠ found.code
        · simp only [if_pos hcode]
          exact decides_stmt hs (.checking hin hid)
        · simp only [if_neg hcode]
          exact decides_stmt hs (.saving hin hid)
  | @checking id now req input hin hid =>
    cases he
    cases hfind : (t.find? (·.code = input.code)).map (·.id) with
    | none => exact decides_stmt hs (.saving hin hid)
    | some found => exact decides_taken hs hid hin (lookup_some hfind)
  | saving hin hid => exact decides_save hs hin he
  | @deleting id now =>
    cases he
    cases hfind : t.row? id.value with
    | none => exact decides_missing hs hfind (.inr ⟨now, rfl⟩)
    | some found =>
      have hid : (t.row? id.value).isSome = true := by
        rw [hfind]
        rfl
      unfold deactivateFound
      by_cases hactive : (!found.isActive) = true
      · simp only [if_pos hactive]
        refine decides_pure hs (.answers ?_)
        simp only [DefinitionCall.prog, AdminAchievementsService.deleteAchievementGrpc]
        rw [run_findUnique, hfind]
        unfold deactivateFound
        simp only [if_pos hactive]
        rfl
      · simp only [if_neg hactive]
        exact decides_stmt hs (.deactivating hid)
  | deactivating hid => exact decides_deactivate hs he

/-- A create that the table refuses. -/
theorem create_refuses {id : Uuid} {now : Instant} {req : AchievementMutationRequest}
    {input : NormalizedAchievementInput} {e : TxError}
    (hin : normalizeAchievementInput issues req = .ok input)
    (he : t.eval (.create id input now) = .error e) :
    t.Does issues other (.create id now req) (.error e) t := by
  have heval : definitions.eval (.create id input now) t = .error e := he
  by_cases htaken : ∃ a ∈ t, a.code = input.code
  · rw [AchievementTable.create_error he]
    exact .indexed rfl hin (run_create_taken hin htaken) rfl
  · refine .refuses ?_
    rw [run_create_free hin fun a ha hcode => htaken ⟨a, ha, hcode⟩]
    exact definitions.run_stmt_error heval

/-- An update that the table refuses. -/
theorem update_refuses {id : UuidText} {now : Instant} {req : AchievementMutationRequest}
    {input : NormalizedAchievementInput} {e : TxError}
    (hin : normalizeAchievementInput issues req = .ok input)
    (hid : (t.row? id.value).isSome = true)
    (he : t.eval (.update id.value input now) = .error e) :
    t.Does issues other (.update id now req) (.error e) t := by
  have heval : definitions.eval (.update id.value input now) t = .error e := he
  obtain ⟨found, hfound⟩ := Option.isSome_iff_exists.1 hid
  by_cases hsave : found.code = input.code ∨ ∀ a ∈ t, a.code ≠ input.code
  · refine .refuses ?_
    rw [run_update_free hin hfound hsave]
    exact definitions.run_stmt_error heval
  · rw [not_or, not_forall] at hsave
    obtain ⟨hcode, a, ha⟩ := hsave
    rw [Classical.not_imp, not_not] at ha
    rw [AchievementTable.update_error hid he]
    exact .indexed rfl hin (run_update_taken hin hfound hcode ⟨a, ha⟩) rfl

/-- A statement that fails leaves its error and the table as it was. -/
theorem position_refuses {call : DefinitionCall} {β : Type} {s : DefinitionStmt β}
    {k : β → Prog DefinitionStmt TxError AchievementDto} {e : TxError}
    (h : Position issues other t call (.stmt s k)) (he : t.eval s = .error e) :
    t.Does issues other call (.error e) t := by
  cases h with
  | creating hin => cases he
  | inserting hin => exact create_refuses hin he
  | updating => cases he
  | checking hin hid => cases he
  | saving hin hid => exact update_refuses hin hid he
  | deleting => cases he
  | deactivating hid =>
    simp only [AchievementTable.eval] at he
    split at he
    · rename_i hnone
      rw [hnone] at hid
      cases hid
    · cases he

/-- The admin calls are atomic at the statement that decides them. -/
theorem admin_linearizes {ι : Type} (issues : JsValue → String) (other : ℚ → Text)
    (calls : ι → DefinitionCall) :
    Linearizes definitions (fun i => (calls i).prog issues other) id
      (fun i t r t' => AchievementTable.Does issues other t (calls i) r t') AchievementTable.Sound
      (fun i p t => Position issues other t (calls i) p) where
  begins i {t} hs := by
    generalize calls i = call
    cases call with
    | create id now req =>
      simp only [DefinitionCall.prog, AdminAchievementsService.createAchievementGrpc]
      cases hin : normalizeAchievementInput issues req with
      | error e =>
        refine ⟨?_, nofun⟩
        rintro r ⟨⟩
        refine .refuses ?_
        simp only [DefinitionCall.prog, AdminAchievementsService.createAchievementGrpc, hin]
        rfl
      | ok input => exact ⟨nofun, fun _ => .creating hin⟩
    | update id now req => exact ⟨nofun, fun _ => .updating⟩
    | delete id now => exact ⟨nofun, fun _ => .deleting⟩
  answers {i β s k t b ws} hs hp he := by
    obtain ⟨hs', hdecides, hgoes⟩ := position_answers hs hp he
    exact ⟨hs', fun _ _ => Position.stable he, hdecides, hgoes⟩
  refuses _ hp he := position_refuses hp he

end calls

end CinemaLoyalty
