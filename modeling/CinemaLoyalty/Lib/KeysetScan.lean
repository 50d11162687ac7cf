import CinemaLoyalty.Lib.Keyset
import CinemaLoyalty.Lib.Transition

/-! @lib KeysetScan | scheme:loop | layer:library

    A keyset job beside other writers. Between its pages and between its rows the world changes in
    any way; a row is worked on by one step of the world. The rows worked on descend strictly, each
    was in the filter when its page was read, and when the job has ended, a row it has not worked on
    was out of the filter at some time of the run (`scanned`). Where work on a row of the filter takes
    it out, so was every row (`settled`). -/

namespace KeysetScan
open Keyset Transition

inductive Phase
  | running
  | finished
  | failed
  deriving DecidableEq

/-- A job under way: the worlds of the run so far, the last key seen, the rest of the page, and the
    rows worked on. -/
structure Scan (σ α κ : Type) where
  world : σ
  past : List σ
  cursor : Option κ
  batch : List α
  worked : List α
  phase : Phase

/-- A job and the writers beside it; work fails or leaves a world. -/
structure Job (σ α κ ε ν : Type) where
  key : α → κ
  rows : List α
  take : ℕ
  cond : σ → α → Bool
  work : ν → α → σ → Option σ
  other : ε → σ → σ

/-- A writer writes; the job reads its next page, works on its next row, or is stopped. -/
inductive Action (ε ν : Type)
  | other (e : ε)
  | fetch
  | work (n : ν)
  | stop

section scans
variable {σ α κ ε ν : Type}

/-- The world moves on. -/
def Scan.moved (s : Scan σ α κ) (x : σ) : Scan σ α κ := { s with world := x, past := s.past ++ [x] }

/-- Before the first page. -/
def Scan.start (x : σ) : Scan σ α κ := ⟨x, [x], none, [], [], .running⟩

/-- The rows of the pages so far. -/
def Scan.seen (s : Scan σ α κ) : List α := s.worked ++ s.batch

variable [LinearOrder κ] (J : Job σ α κ ε ν)

/-- The page that follows. -/
def Job.next (s : Scan σ α κ) : List α := page J.key J.rows J.take (J.cond s.world) s.cursor

def Job.step : Action ε ν → Scan σ α κ → Option (Scan σ α κ)
  | .other e, s => some (s.moved (J.other e s.world))
  | .fetch, s =>
    if s.phase = .running ∧ s.batch.isEmpty = true then
      match (J.next s).getLast? with
      | none => some { s with phase := .finished }
      | some last => some { s with batch := J.next s, cursor := some (J.key last) }
    else none
  | .work n, s =>
    match s.phase, s.batch with
    | .running, r :: batch =>
      match J.work n r s.world with
      | none => some { s with phase := .failed }
      | some x => some { s.moved x with batch, worked := s.worked ++ [r] }
    | _, _ => none
  | .stop, s => if s.phase = .running then some { s with phase := .failed } else none

/-- The job from a world on. -/
def Job.system (x : σ) : System (Scan σ α κ) (Action ε ν) where
  first := .start x
  step := J.step

/-- A step, by what it changes; `ok` are the readings that work is given. -/
inductive Stepped (ok : ν → Prop) (s : Scan σ α κ) : Scan σ α κ → Prop
  | others (e : ε) : Stepped ok s (s.moved (J.other e s.world))
  | fetches {last : α} (hrun : s.phase = .running) (hbatch : s.batch = [])
      (hlast : (J.next s).getLast? = some last) :
      Stepped ok s { s with batch := J.next s, cursor := some (J.key last) }
  | finishes (hbatch : s.batch = []) (hnone : J.next s = []) :
      Stepped ok s { s with phase := .finished }
  | works {n : ν} {r : α} {batch : List α} {x : σ} (hn : ok n) (hrun : s.phase = .running)
      (hbatch : s.batch = r :: batch) (hwork : J.work n r s.world = some x) :
      Stepped ok s { s.moved x with batch, worked := s.worked ++ [r] }
  | fails (hrun : s.phase = .running) : Stepped ok s { s with phase := .failed }

/-- The readings of an action are among `ok`. -/
def Action.Reads (ok : ν → Prop) (a : Action ε ν) : Prop := ∀ n, a = .work n → ok n

instance (ok : ν → Prop) [DecidablePred ok] (a : Action ε ν) : Decidable (a.Reads ok) :=
  match a with
  | .work n => decidable_of_iff (ok n) ⟨fun h _ heq => Action.work.inj heq ▸ h, fun h => h n rfl⟩
  | .other _ => .isTrue nofun
  | .fetch => .isTrue nofun
  | .stop => .isTrue nofun

variable {J} {ok : ν → Prop} {s s' : Scan σ α κ}

theorem step_cases {a : Action ε ν} (ha : a.Reads ok) (h : J.step a s = some s') :
    Stepped J ok s s' := by
  cases a with
  | other e =>
    obtain rfl := Option.some.inj h
    exact .others e
  | fetch =>
    simp only [Job.step, Option.ite_none_right_eq_some, List.isEmpty_iff] at h
    obtain ⟨⟨hrun, hbatch⟩, h⟩ := h
    split at h
    · rename_i hnone
      obtain rfl := Option.some.inj h
      exact .finishes hbatch (List.getLast?_eq_none_iff.1 hnone)
    · rename_i last hlast
      obtain rfl := Option.some.inj h
      exact .fetches hrun hbatch hlast
  | work n =>
    simp only [Job.step] at h
    split at h
    · rename_i r batch hrun hbatch
      split at h
      · obtain rfl := Option.some.inj h
        exact .fails hrun
      · rename_i x hwork
        obtain rfl := Option.some.inj h
        exact .works (ha n rfl) hrun hbatch hwork
    · cases h
  | stop =>
    simp only [Job.step, Option.ite_none_right_eq_some, Option.some.injEq] at h
    obtain ⟨hrun, rfl⟩ := h
    exact .fails hrun

/-! ### Pages -/

/-- A page has its rows from the table, in the filter, below the cursor and in descending order, its
    last row below all others. -/
theorem mem_next {r : α} (h : r ∈ J.next s) :
    r ∈ J.rows ∧ (∀ c ∈ s.cursor, J.key r < c) ∧ J.cond s.world r = true :=
  mem_due.1 (List.mem_of_mem_take (by rw [← page_eq]; exact h))

theorem next_descends (hkey : (J.rows.map J.key).Nodup) :
    (J.next s).Pairwise fun a b => J.key b < J.key a := by
  unfold Job.next
  rw [page_eq]
  exact (due_strict hkey _ _).sublist (List.take_sublist _ _)

theorem last_le (hkey : (J.rows.map J.key).Nodup) {last r : α}
    (hlast : (J.next s).getLast? = some last) (hr : r ∈ J.next s) : J.key last ≤ J.key r := by
  obtain ⟨batch, hbatch⟩ := List.getLast?_eq_some_iff.1 hlast
  have hstrict := next_descends hkey (s := s)
  rw [hbatch] at hr hstrict
  obtain ⟨-, -, hbelow⟩ := List.pairwise_append.1 hstrict
  rcases List.mem_append.1 hr with hr | hr
  · exact (hbelow r hr last (List.mem_singleton_self _)).le
  · rw [List.mem_singleton.1 hr]

/-- A row that is due and not on the page lies below the page. -/
theorem below_last (hkey : (J.rows.map J.key).Nodup) {last r : α}
    (hlast : (J.next s).getLast? = some last) (hr : r ∈ J.rows) (hcond : J.cond s.world r = true)
    (hcursor : ∀ c ∈ s.cursor, J.key r < c) (hnot : r ∉ J.next s) : J.key r < J.key last := by
  have hdue : r ∈ due J.key J.rows (J.cond s.world) s.cursor := mem_due.2 ⟨hr, hcursor, hcond⟩
  have hstrict := due_strict hkey (J.cond s.world) s.cursor
  rw [← List.take_append_drop J.take (due J.key J.rows (J.cond s.world) s.cursor)] at hdue hstrict
  have hrest := (List.mem_append.1 hdue).resolve_left hnot
  exact (List.pairwise_append.1 hstrict).2.2 last (List.mem_of_getLast? hlast) r hrest

/-! ### Over runs -/

/-- What the job has seen: rows of the table in descending order, down to its cursor, each in the
    filter in some world of the run. -/
structure InOrder (J : Job σ α κ ε ν) (s : Scan σ α κ) : Prop where
  present : s.world ∈ s.past
  descends : s.seen.Pairwise fun a b => J.key b < J.key a
  above : ∀ r ∈ s.seen, ∃ c ∈ s.cursor, c ≤ J.key r
  selected : ∀ r ∈ s.seen, r ∈ J.rows ∧ ∃ x ∈ s.past, J.cond x r = true

/-- A row of the table was out of the filter in some world, has been seen, or is still to come. -/
def Covers (J : Job σ α κ ε ν) (s : Scan σ α κ) (r : α) : Prop :=
  (∃ x ∈ s.past, J.cond x r = false) ∨ r ∈ s.seen ∨
    s.phase ≠ .finished ∧ ∀ c ∈ s.cursor, J.key r < c

theorem inOrder_step (hkey : (J.rows.map J.key).Nodup) (hs : InOrder J s) (h : Stepped J ok s s') :
    InOrder J s' := by
  have hlater : ∀ x, ∀ r, (r ∈ J.rows ∧ ∃ y ∈ s.past, J.cond y r = true) →
      r ∈ J.rows ∧ ∃ y ∈ s.past ++ [x], J.cond y r = true := by
    rintro x r ⟨hr, y, hy, hcond⟩
    exact ⟨hr, y, List.mem_append_left _ hy, hcond⟩
  cases h with
  | others e =>
    exact
      { present := List.mem_append_right _ (List.mem_singleton_self _)
        descends := hs.descends
        above := hs.above
        selected := fun r hr => hlater _ r (hs.selected r hr) }
  | @fetches last hrun hbatch hlast =>
    have hworked : s.seen = s.worked := by rw [Scan.seen, hbatch, List.append_nil]
    have hcursor : ∀ r ∈ s.worked, ∃ c ∈ s.cursor, c ≤ J.key r := by
      rw [← hworked]
      exact hs.above
    refine ⟨hs.present, ?descends, ?above, ?selected⟩
    case descends =>
      refine List.pairwise_append.2 ⟨hworked ▸ hs.descends, next_descends hkey, fun a ha b hb => ?_⟩
      obtain ⟨c, hc, hle⟩ := hcursor a ha
      exact ((mem_next hb).2.1 c hc).trans_le hle
    case above =>
      intro r hr
      refine ⟨J.key last, rfl, ?_⟩
      rcases List.mem_append.1 hr with hr | hr
      · obtain ⟨c, hc, hle⟩ := hcursor r hr
        exact (((mem_next (List.mem_of_getLast? hlast)).2.1 c hc).trans_le hle).le
      · exact last_le hkey hlast hr
    case selected =>
      intro r hr
      rcases List.mem_append.1 hr with hr | hr
      · exact hs.selected r (hworked ▸ hr)
      · exact ⟨(mem_next hr).1, s.world, hs.present, (mem_next hr).2.2⟩
  | finishes _ _ => exact ⟨hs.present, hs.descends, hs.above, hs.selected⟩
  | @works n r batch x _ _ hbatch _ =>
    have hseen : (s.worked ++ [r]) ++ batch = s.seen := by
      rw [Scan.seen, hbatch, List.append_assoc]
      rfl
    exact
      { present := List.mem_append_right _ (List.mem_singleton_self _)
        descends := by
          rw [Scan.seen, hseen]
          exact hs.descends
        above := by
          rw [Scan.seen, hseen]
          exact hs.above
        selected := by
          rw [Scan.seen, hseen]
          exact fun r hr => hlater x r (hs.selected r hr) }
  | fails _ => exact ⟨hs.present, hs.descends, hs.above, hs.selected⟩

theorem covers_step (hkey : (J.rows.map J.key).Nodup) (htake : 1 ≤ J.take) {r : α} (hr : r ∈ J.rows)
    (hs : InOrder J s) (hc : Covers J s r) (h : Stepped J ok s s') : Covers J s' r := by
  have hlater : ∀ x, (∃ y ∈ s.past, J.cond y r = false) → ∃ y ∈ s.past ++ [x], J.cond y r = false := by
    rintro x ⟨y, hy, hcond⟩
    exact ⟨y, List.mem_append_left _ hy, hcond⟩
  cases h with
  | others e => exact hc.imp_left (hlater _)
  | @fetches last hrun hbatch hlast =>
    rcases hc with hout | hseen | ⟨-, hcursor⟩
    · exact .inl hout
    · rw [Scan.seen, hbatch, List.append_nil] at hseen
      exact .inr (.inl (List.mem_append_left _ hseen))
    · cases hcond : J.cond s.world r with
      | false => exact .inl ⟨s.world, hs.present, hcond⟩
      | true =>
        refine .inr ?_
        by_cases hpage : r ∈ J.next s
        · exact .inl (List.mem_append_right _ hpage)
        · refine .inr ⟨by rw [hrun]; decide, ?_⟩
          rintro c ⟨⟩
          exact below_last hkey hlast hr hcond hcursor hpage
  | finishes hbatch hnone =>
    rcases hc with hout | hseen | ⟨-, hcursor⟩
    · exact .inl hout
    · exact .inr (.inl hseen)
    · -- a row that is due would be on the page
      refine .inl ⟨s.world, hs.present, ?_⟩
      cases hcond : J.cond s.world r with
      | false => rfl
      | true =>
        have hdue : r ∈ due J.key J.rows (J.cond s.world) s.cursor := mem_due.2 ⟨hr, hcursor, hcond⟩
        rw [Job.next, page_eq, List.take_eq_nil_iff] at hnone
        rw [hnone.resolve_left (by omega)] at hdue
        cases hdue
  | @works n r' batch x _ _ hbatch _ =>
    have hseen : (s.worked ++ [r']) ++ batch = s.seen := by
      rw [Scan.seen, hbatch, List.append_assoc]
      rfl
    rcases hc with hout | hsaw | hcome
    · exact .inl (hlater x hout)
    · refine .inr (.inl ?_)
      rw [Scan.seen, hseen]
      exact hsaw
    · exact .inr (.inr hcome)
  | fails _ =>
    rcases hc with hout | hseen | ⟨-, hcursor⟩
    · exact .inl hout
    · exact .inr (.inl hseen)
    · exact .inr (.inr ⟨Phase.noConfusion, hcursor⟩)

/-- Nothing is left of a page when the job ends. -/
theorem batch_step (hb : s.phase = .finished → s.batch = []) (h : Stepped J ok s s') :
    s'.phase = .finished → s'.batch = [] := by
  cases h with
  | others e => exact hb
  | fetches hrun _ _ =>
    intro hfinished
    rw [hrun] at hfinished
    cases hfinished
  | finishes hbatch _ => exact fun _ => hbatch
  | works _ hrun _ _ =>
    intro hfinished
    rw [Scan.moved, hrun] at hfinished
    cases hfinished
  | fails _ => exact nofun

/-- The rows worked on descend strictly and each was selected; when the job has ended, a row it has
    not worked on was out of the filter at some time. -/
theorem scanned (hkey : (J.rows.map J.key).Nodup) (htake : 1 ≤ J.take) {x : σ}
    (h : (J.system x).ReachedBy (fun a _ => a.Reads ok) s) :
    (s.worked.Pairwise fun a b => J.key b < J.key a) ∧
      (∀ r ∈ s.worked, r ∈ J.rows ∧ ∃ y ∈ s.past, J.cond y r = true) ∧
      (s.phase = .finished → ∀ r ∈ J.rows, r ∈ s.worked ∨ ∃ y ∈ s.past, J.cond y r = false) := by
  obtain ⟨⟨hs, hc⟩, hb⟩ := h.invariant (I := fun s => (InOrder J s ∧ ∀ r ∈ J.rows, Covers J s r) ∧
      (s.phase = .finished → s.batch = []))
    ⟨⟨⟨List.mem_singleton_self _, .nil, nofun, nofun⟩, fun r _ => .inr (.inr ⟨Phase.noConfusion, nofun⟩)⟩,
      nofun⟩
    fun ha hstep ⟨⟨hs, hc⟩, hb⟩ =>
      have hcases := step_cases ha hstep
      ⟨⟨inOrder_step hkey hs hcases, fun r hr => covers_step hkey htake hr hs (hc r hr) hcases⟩,
        batch_step hb hcases⟩
  refine ⟨hs.descends.sublist (List.sublist_append_left _ _),
    fun r hr => hs.selected r (List.mem_append_left _ hr), fun hfinished r hr => ?_⟩
  rcases hc r hr with hout | hseen | ⟨hrunning, -⟩
  · exact .inr hout
  · rw [Scan.seen, hb hfinished, List.append_nil] at hseen
    exact .inl hseen
  · exact absurd hfinished hrunning

/-- Under an invariant of the world, work on a row of the filter takes it out. -/
structure Settles (J : Job σ α κ ε ν) (ok : ν → Prop) (I : σ → Prop) : Prop where
  other : ∀ {x} e, I x → I (J.other e x)
  work : ∀ {n r x y}, J.work n r x = some y → I x → I y
  settles : ∀ {n r x y}, ok n → I x → J.cond x r = true → J.work n r x = some y →
    J.cond y r = false

/-- The invariant holds, and every row worked on was out of the filter at some time. -/
structure Left (J : Job σ α κ ε ν) (I : σ → Prop) (s : Scan σ α κ) : Prop where
  inv : I s.world
  present : s.world ∈ s.past
  out : ∀ r ∈ s.worked, ∃ y ∈ s.past, J.cond y r = false

theorem left_step {I : σ → Prop} (hset : Settles J ok I) (hs : Left J I s) (h : Stepped J ok s s') :
    Left J I s' := by
  have hlater : ∀ y, ∀ r ∈ s.worked, ∃ z ∈ s.past ++ [y], J.cond z r = false := by
    intro y r hr
    obtain ⟨z, hz, hcond⟩ := hs.out r hr
    exact ⟨z, List.mem_append_left _ hz, hcond⟩
  have hlast : ∀ y, y ∈ s.past ++ [y] := fun y => List.mem_append_right _ (List.mem_singleton_self _)
  cases h with
  | others e => exact ⟨hset.other e hs.inv, hlast _, hlater _⟩
  | fetches _ _ _ => exact ⟨hs.inv, hs.present, hs.out⟩
  | finishes _ _ => exact ⟨hs.inv, hs.present, hs.out⟩
  | @works n r batch y hn _ _ hwork =>
    refine ⟨hset.work hwork hs.inv, hlast _, fun r' hr' => ?_⟩
    rcases List.mem_append.1 hr' with hr' | hr'
    · exact hlater y r' hr'
    · obtain rfl := List.mem_singleton.1 hr'
      cases hcond : J.cond s.world r' with
      | false => exact ⟨s.world, List.mem_append_left _ hs.present, hcond⟩
      | true => exact ⟨y, hlast y, hset.settles hn hs.inv hcond hwork⟩
  | fails _ => exact ⟨hs.inv, hs.present, hs.out⟩

/-- When the job has ended, every row was out of the filter at some time. -/
theorem settled {I : σ → Prop} (hset : Settles J ok I) (hkey : (J.rows.map J.key).Nodup)
    (htake : 1 ≤ J.take) {x : σ} (hx : I x) (h : (J.system x).ReachedBy (fun a _ => a.Reads ok) s)
    (hfinished : s.phase = .finished) : ∀ r ∈ J.rows, ∃ y ∈ s.past, J.cond y r = false := by
  intro r hr
  rcases (scanned hkey htake h).2.2 hfinished r hr with hworked | hout
  · have hleft : Left J I s := h.invariant ⟨hx, List.mem_singleton_self _, nofun⟩
      fun ha hstep hs => left_step hset hs (step_cases ha hstep)
    exact hleft.out r hworked
  · exact hout

/-! ### A job left alone -/

/-- The rest of a page, worked on without a writer between. -/
theorem leads_batch {first : σ} (clock : α → ν) (hclock : ∀ r, ok (clock r)) {batch : List α} {x : σ}
    (hrun : s.phase = .running) (hbatch : s.batch = batch)
    (hwork : batch.foldlM (fun y r => J.work (clock r) r y) s.world = some x) :
    ∃ s', (J.system first).Run (fun a _ => a.Reads ok) s s' ∧ s'.world = x ∧ s'.cursor = s.cursor ∧
      s'.batch = [] ∧ s'.worked = s.worked ++ batch ∧ s'.phase = .running := by
  induction batch generalizing s with
  | nil =>
    obtain rfl := Option.some.inj hwork
    exact ⟨s, .refl, rfl, rfl, hbatch, (List.append_nil _).symm, hrun⟩
  | cons r batch ih =>
    rw [List.foldlM_cons] at hwork
    obtain ⟨y, hy, hwork⟩ := Option.bind_eq_some_iff.1 hwork
    obtain ⟨s', hleads, hworld, hcursor, hrest, hworked, hphase⟩ :=
      ih (s := { s.moved y with batch, worked := s.worked ++ [r] }) hrun rfl hwork
    refine ⟨s', .head ⟨.work (clock r), ?_, ?_⟩ hleads, hworld, hcursor, hrest, ?_, hphase⟩
    · rintro n ⟨⟩
      exact hclock r
    · show J.step (.work (clock r)) s = _
      simp only [Job.step, hrun, hbatch, hy]
    · rw [hworked, List.append_assoc]
      rfl

/-- What a keyset job does alone, a scan does when nothing comes between. -/
theorem leads_job {τ δ : Type} {first : σ} (clock : α → ν) (hclock : ∀ r, ok (clock r)) (view : τ → σ)
    {work : τ → List α → Except δ τ}
    (hwork : ∀ {t batch t'}, work t batch = .ok t' →
      batch.foldlM (fun y r => J.work (clock r) r y) (view t) = some (view t')) (fuel : ℕ) {t t' : τ}
    {seen : List α} (hrun : s.phase = .running) (hbatch : s.batch = []) (hview : s.world = view t)
    (hjob : job J.key J.rows J.take (fun t => J.cond (view t)) work fuel t s.cursor =
      some (.ok (t', seen))) :
    ∃ s', (J.system first).Run (fun a _ => a.Reads ok) s s' ∧ s'.phase = .finished ∧
      s'.world = view t' ∧ s'.worked = s.worked ++ seen := by
  induction fuel generalizing s t seen with
  | zero => cases hjob
  | succ fuel ih =>
    have hnext : page J.key J.rows J.take (J.cond (view t)) s.cursor = J.next s := by
      rw [Job.next, hview]
    simp only [job, hnext, List.isEmpty_iff] at hjob
    split at hjob
    · rename_i hnone
      cases hjob
      refine ⟨{ s with phase := .finished }, .single ⟨.fetch, nofun, ?_⟩, rfl, hview,
        (List.append_nil _).symm⟩
      show J.step .fetch s = _
      simp only [Job.step, hrun, hbatch, hnone, List.isEmpty_nil, and_self, if_true,
        List.getLast?_nil]
    · rename_i hne
      split at hjob
      · cases hjob
      rename_i t₁ ht₁
      obtain ⟨r, hr, hjob⟩ := Option.map_eq_some_iff.1 hjob
      cases r with
      | error e => cases hjob
      | ok r =>
        cases hjob
        have hlast := List.getLast?_eq_some_getLast hne
        rw [hlast] at hr
        have hfold := hwork ht₁
        rw [← hview] at hfold
        obtain ⟨s₁, hleads, hworld, hcursor, hrest, hworked, hphase⟩ := leads_batch clock hclock
          (s := { s with batch := J.next s, cursor := some (J.key ((J.next s).getLast hne)) }) hrun rfl
          hfold
        rw [Option.map_some] at hr
        have hr' : job J.key J.rows J.take (fun t => J.cond (view t)) work fuel t₁ s₁.cursor =
            some (.ok r) := by
          rw [hcursor]
          exact hr
        obtain ⟨s', hleads', hfinished, hworld', hworked'⟩ := ih hphase hrest hworld hr'
        refine ⟨s', .head ⟨.fetch, nofun, ?_⟩ (hleads.trans hleads'), hfinished, hworld', ?_⟩
        · show J.step .fetch s = _
          simp only [Job.step, hrun, hbatch, List.isEmpty_nil, and_self, if_true, hlast]
        · rw [hworked', hworked, List.append_assoc]

end scans

end KeysetScan
