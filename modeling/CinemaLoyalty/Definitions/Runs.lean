import CinemaLoyalty.Definitions.Linearization

/-! @svc DefinitionRuns | layer:property | source:src/achievements/admin-achievements.service.ts, src/achievements/processors/achievements.processor.ts

    What holds in every state that concurrent admin calls reach: they are one-at-a-time calls in an
    order that only grows, up to three races, codes stay unique, no definition disappears, the worker can read every
    one, and a definition that is submitted as it is shown stays what it is. -/

namespace CinemaLoyalty
open Utf16 Txn

/-! ### Two admins at once -/

/-- The sample's id as an admin writes it. -/
def sampleId : UuidText where
  text := "3F2504E0-4f89-41d3-9a0c-0305e82c3301"
  value := sampleDefinition.id
  named := by decide

/-- Two admins deactivate the sample. -/
def twoDeletes (first : Bool) : DefinitionCall := .delete sampleId (if first then 1 else 2)

/-- Steps of the two admins. -/
abbrev TwoDeletes : Shared Bool DefinitionStmt TxError AchievementTable AchievementDto →
    Shared Bool DefinitionStmt TxError AchievementTable AchievementDto → Prop :=
  Moves definitions fun i => (twoDeletes i).prog (fun _ => "") fun _ => []

theorem sampleTable_sound : AchievementTable.Sound [sampleDefinition] where
  ids := List.nodup_singleton _
  codes := List.nodup_singleton _
  valid _ ha := List.mem_singleton.1 ha ▸ sampleDefinition_valid

/-- The sample as an admin leaves it. -/
def sampleDeactivated (now : Instant) : AchievementRecord :=
  { sampleDefinition with isActive := false, updatedAt := now }

/-- Both find it active, and both deactivate it. -/
theorem twoDeletes_race : ∃ M, TwoDeletes (.start [sampleDefinition]) M ∧
    M.db = [sampleDeactivated 2] := by
  have hrow : ∀ r : AchievementRecord, r.id = sampleDefinition.id →
      AchievementTable.row? [r] sampleId.value = some r := by
    rintro r hr
    rw [show sampleId.value = r.id from hr.symm]
    exact AchievementTable.row?_mem (List.nodup_singleton _) (List.mem_singleton_self _)
  have hput : ∀ r now, r.id = (sampleDeactivated now).id →
      definitions.view [r] [.put (sampleDeactivated now)] = [sampleDeactivated now] := by
    rintro r now hr
    rw [definitions_view_one, AchievementTable.apply, List.map_singleton, if_pos hr]
  have hread : definitions.eval (.findUnique sampleId.value) [sampleDefinition] =
      .ok (some sampleDefinition, []) := by
    rw [← hrow sampleDefinition rfl]
    rfl
  have hfirst : definitions.eval (.deactivate sampleId.value 1) [sampleDefinition] =
      .ok (sampleDeactivated 1, [.put (sampleDeactivated 1)]) :=
    AchievementTable.deactivate_found 1 (hrow sampleDefinition rfl)
  have hsecond : definitions.eval (.deactivate sampleId.value 2)
      (definitions.view [sampleDefinition] [.put (sampleDeactivated 1)]) =
      .ok (sampleDeactivated 2, [.put (sampleDeactivated 2)]) := by
    rw [hput sampleDefinition 1 rfl]
    exact AchievementTable.deactivate_found 2 (hrow (sampleDeactivated 1) rfl)
  have hmoves : TwoDeletes (.start [sampleDefinition]) _ :=
    (((((Relation.ReflTransGen.single (.begins (i := true) rfl)).tail
      (.begins (i := false) rfl)).tail (.answers (i := true) rfl hread)).tail
      (.answers (i := false) rfl hread)).tail (.answers (i := true) rfl hfirst)).tail
      (.answers (i := false) rfl hsecond)
  refine ⟨_, hmoves, ?_⟩
  simp only [setCaller_db, start_db, definitions.view_nil, hput sampleDefinition 1 rfl]
  exact hput (sampleDeactivated 1) 2 rfl

section runs
variable {ι : Type} [DecidableEq ι] {issues : JsValue → String} {other : ℚ → Text}
  {calls : ι → DefinitionCall} {t : AchievementTable}
  {M M' : Shared ι DefinitionStmt TxError AchievementTable AchievementDto}

/-- Concurrent calls are one-at-a-time calls in some order, each with the answer it was given: each
    does what it would do alone at its place, or what one of the races makes of it. Later steps only
    add to the order. -/
theorem admin_calls_ordered (ht : t.Sound)
    (h : Moves definitions (fun i => (calls i).prog issues other) (.start t) M) :
    ∃ order, Ordered id (fun i x r x' => AchievementTable.Does issues other x (calls i) r x') t
        order M ∧
      ∀ M', Moves definitions (fun i => (calls i).prog issues other) M M' → ∃ more,
        Ordered id (fun i x r x' => AchievementTable.Does issues other x (calls i) r x') t
          (order ++ more) M' := by
  have H := admin_linearizes issues other calls
  obtain ⟨order, hL⟩ := linearizes_run H ht h
  refine ⟨order, hL.toOrdered, fun M' hM' => ?_⟩
  obtain ⟨more, hL'⟩ := linearizes_moves H hL hM'
  exact ⟨more, hL'.toOrdered⟩

/-- The race of the two admins. -/
theorem twoDeletes_ordered : ∃ M, TwoDeletes (.start [sampleDefinition]) M ∧
    M.db = [sampleDeactivated 2] ∧ ∃ order, Ordered id (fun i x r x' =>
      AchievementTable.Does (fun _ => "") (fun _ => []) x (twoDeletes i) r x') [sampleDefinition]
        order M := by
  obtain ⟨M, h, hdb⟩ := twoDeletes_race
  obtain ⟨order, hordered, -⟩ := admin_calls_ordered sampleTable_sound h
  exact ⟨M, h, hdb, order, hordered⟩

/-- The worker finds a valid definition under the action its criteria name. -/
theorem valid_matches {a : AchievementRecord} (h : a.toAchievementColumns.Valid) :
    ∃ criteria, parseAchievementCriteria a.achievement.criteria = some criteria ∧
      (a.isActive = true → a.achievement.matches criteria.field = true) := by
  obtain ⟨c, criteria, hnormal, hdecoded, -, hcolumn⟩ := h.criteria
  have hshown := jsonb_reordered criteria
  have hcriteria : a.achievement.criteria = jsonb criteria.toJson := hcolumn
  refine ⟨criteria, ?_, fun hactive => ?_⟩
  · rw [hcriteria, worker_reads hnormal hdecoded hshown]
  · have hsame : a.achievement.isActive = true := hactive
    unfold Achievement.matches
    rw [hsame, hcriteria, (field_reordered hshown).2.1]
    exact decide_eq_true rfl

/-- Whatever admins do at once, from one state to a later one: codes and ids are distinct, every
    definition is valid, none has disappeared or changed its creation time, and the worker reads the
    criteria of each and finds the active ones under their action. -/
theorem definitions_stay_sound (ht : t.Sound)
    (h : Moves definitions (fun i => (calls i).prog issues other) (.start t) M)
    (h' : Moves definitions (fun i => (calls i).prog issues other) M M') : M'.db.Sound ∧
      (∀ a ∈ M.db, ∃ b ∈ M'.db, b.id = a.id ∧ b.createdAt = a.createdAt) ∧
      ∀ a ∈ M'.db, ∃ criteria, parseAchievementCriteria a.achievement.criteria = some criteria ∧
        (a.isActive = true → a.achievement.matches criteria.field = true) := by
  have H := admin_linearizes issues other calls
  obtain ⟨_, hL⟩ := linearizes_run H ht h
  obtain ⟨_, hL'⟩ := linearizes_moves H hL h'
  refine ⟨hL'.inv, fun a ha => ?_, fun a ha => valid_matches (hL'.inv.valid a ha)⟩
  have hkept : ∃ b, M'.db.row? a.id = some b ∧ b.createdAt = a.createdAt := by
    refine moves_keep (I := fun x : AchievementTable => ∃ b, x.row? a.id = some b ∧
      b.createdAt = a.createdAt) ?_ h' ⟨a, AchievementTable.row?_mem hL.inv.ids ha, rfl⟩
    rintro β s x b ws ⟨a', ha', hcreated⟩ he
    obtain ⟨a'', ha'', hcreated'⟩ := AchievementTable.eval_keeps he ha'
    exact ⟨a'', ha'', hcreated'.trans hcreated⟩
  obtain ⟨b, hb, hcreated⟩ := hkept
  obtain ⟨hmem, hid⟩ := AchievementTable.row?_some hb
  exact ⟨b, hmem, hid, hcreated⟩

/-- After the race of the two admins. -/
theorem twoDeletes_sound : ∃ M, TwoDeletes (.start [sampleDefinition]) M ∧
    AchievementTable.Sound M.db := by
  obtain ⟨M, h, -⟩ := twoDeletes_race
  exact ⟨M, h, (definitions_stay_sound sampleTable_sound .refl h).1⟩

/-- In every state an admin who submits a definition as it is shown is answered with it, and nothing
    changes but the time of its last update. -/
theorem shown_definition_resubmits {r : AchievementRecord} {id : UuidText} (now : Instant)
    (ht : t.Sound) (h : Moves definitions (fun i => (calls i).prog issues other) (.start t) M)
    (hr : r ∈ M.db) (hid : id.value = r.id) :
    definitions.run (AdminAchievementsService.updateAchievementGrpc issues other id now
        (toGrpc other r).resubmitted) M.db =
      .ok (toGrpc other { r with updatedAt := now }, M.db.apply (.put { r with updatedAt := now })) := by
  obtain ⟨_, hL⟩ := linearizes_run (admin_linearizes issues other calls) ht h
  have hs : M.db.Sound := hL.inv
  obtain ⟨input, hin, hcolumns⟩ := resubmit issues other (hs.valid r hr)
  have hrow : M.db.row? id.value = some r := by
    rw [hid]
    exact AchievementTable.row?_mem hs.ids hr
  have hsame : input.code = r.code := (columns_code hcolumns).symm
  have hfree : ∀ a ∈ M.db, a.code = r.code → a.id = id.value := fun a ha hcode => by
    rw [List.inj_on_of_nodup_map hs.codes ha hr hcode, hid]
  have hupdate : definitions.eval (.update id.value input now) M.db =
      .ok ({ r with updatedAt := now }, [.put { r with updatedAt := now }]) := by
    rw [hid] at hrow hfree ⊢
    exact AchievementTable.update_free now hcolumns hrow hfree
  have hfind : definitions.eval (.findUnique id.value) M.db = .ok (some r, []) := by
    rw [← hrow]
    rfl
  unfold AdminAchievementsService.updateAchievementGrpc
  rw [definitions.run_stmt_ok hfind, definitions.view_nil]
  unfold AdminAchievementsService.saveFound
  simp only [hin, hsame, ne_eq, not_true_eq_false, if_false]
  unfold AdminAchievementsService.save
  rw [definitions.run_stmt_ok hupdate]
  rfl

/-- The sample, after two admins have deactivated it. -/
theorem twoDeletes_resubmit : ∃ db, definitions.run
    (AdminAchievementsService.updateAchievementGrpc (fun _ => "") (fun _ => []) sampleId 3
      (toGrpc (fun _ => []) (sampleDeactivated 2)).resubmitted) [sampleDeactivated 2] =
      .ok (toGrpc (fun _ => []) (sampleDeactivated 3), db) := by
  obtain ⟨M, h, hdb⟩ := twoDeletes_race
  have hmem : sampleDeactivated 2 ∈ M.db := hdb ▸ List.mem_singleton_self _
  have hid : sampleId.value = (sampleDeactivated 2).id := rfl
  have hshown := shown_definition_resubmits 3 sampleTable_sound h hmem hid
  rw [hdb] at hshown
  exact ⟨_, hshown⟩

end runs

end CinemaLoyalty
