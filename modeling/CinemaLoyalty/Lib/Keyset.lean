import Mathlib.Data.List.Sort
import Mathlib.Order.Basic
import Mathlib.Data.List.Nodup

/-! @lib Keyset | scheme:loop | layer:library

    Jobs that page through a table by a unique key: take the next rows that match below the last key
    seen, work on them, and go on until a page is empty. Work may take rows out of the filter; as
    long as it decides nothing about other rows, the job ends and works on every row that matched at
    the start, once, in descending order of the keys (`Works.job_eq`). -/

namespace Keyset

section order
variable {α κ : Type} [LinearOrder κ] {key : α → κ}

/-- The rows in descending order of their keys. -/
def descending (key : α → κ) (rows : List α) : List α :=
  rows.insertionSort fun a b => key b ≤ key a

/-- The first `take` rows that match below the cursor. -/
def page (key : α → κ) (rows : List α) (take : ℕ) (cond : α → Bool) (cursor : Option κ) : List α :=
  (descending key (rows.filter fun r => cursor.all (fun c => decide (key r < c)) && cond r)).take take

/-- The page from the cursor row on, the cursor row itself skipped. -/
def cursorPage (key : α → κ) (rows : List α) (take : ℕ) (cond : α → Bool) :
    Option κ → List α
  | none => (descending key (rows.filter cond)).take take
  | some c => ((descending key (rows.filter fun r => decide (key r ≤ c) && cond r)).drop 1).take take

theorem descending_perm (key : α → κ) (rows : List α) : (descending key rows).Perm rows :=
  List.perm_insertionSort _ _

theorem mem_descending {rows : List α} {r : α} : r ∈ descending key rows ↔ r ∈ rows :=
  (descending_perm key rows).mem_iff

theorem descending_pairwise (key : α → κ) (rows : List α) :
    (descending key rows).Pairwise fun a b => key b ≤ key a := by
  have : Std.Total fun a b : α => key b ≤ key a := ⟨fun a b => le_total _ _⟩
  have : IsTrans α fun a b => key b ≤ key a := ⟨fun a b c hab hbc => hbc.trans hab⟩
  exact List.pairwise_insertionSort _ rows

/-- Distinct keys descend strictly. -/
theorem descending_strict {rows : List α} (hkey : (rows.map key).Nodup) :
    (descending key rows).Pairwise fun a b => key b < key a := by
  have hnodup : ((descending key rows).map key).Nodup :=
    ((descending_perm key rows).map key).nodup_iff.2 hkey
  have hne : (descending key rows).Pairwise fun a b => key a ≠ key b := List.pairwise_map.1 hnodup
  exact (descending_pairwise key rows).imp₂ (fun a b hle hne => lt_of_le_of_ne hle hne.symm) hne

/-- With distinct keys, sorting and filtering commute. -/
theorem descending_filter {rows : List α} (hkey : (rows.map key).Nodup) (p : α → Bool) :
    descending key (rows.filter p) = (descending key rows).filter p := by
  refine List.Perm.eq_of_pairwise ?_ (descending_pairwise key _)
    ((descending_pairwise key rows).filter p)
    ((descending_perm key _).trans ((descending_perm key rows).filter p).symm)
  intro a b ha hb hba hab
  have ha' : a ∈ rows := List.mem_of_mem_filter (mem_descending.1 ha)
  have hb' : b ∈ rows := mem_descending.1 (List.mem_of_mem_filter hb)
  exact List.inj_on_of_nodup_map hkey ha' hb' (le_antisymm hab hba)

/-- Behind a cursor row that matches stand the rows below it. -/
theorem cursorPage_eq {rows : List α} (hkey : (rows.map key).Nodup) {take : ℕ} {cond : α → Bool}
    {cursor : Option κ} (hcursor : ∀ c ∈ cursor, ∃ r ∈ rows, key r = c ∧ cond r = true) :
    cursorPage key rows take cond cursor = page key rows take cond cursor := by
  cases cursor with
  | none => simp [cursorPage, page]
  | some c =>
    obtain ⟨last, hlast, rfl, hc⟩ := hcursor c rfl
    have hin : last ∈ descending key rows := mem_descending.2 hlast
    obtain ⟨before, after, hsplit⟩ := List.append_of_mem hin
    have hstrict := descending_strict hkey
    rw [hsplit] at hstrict
    obtain ⟨-, hafter, hbefore⟩ := List.pairwise_append.1 hstrict
    have hdrop : ∀ p : α → Bool, (∀ r ∈ before, p r = false) → before.filter p = [] := fun p hp =>
      List.filter_eq_nil_iff.2 fun r hr => by rw [hp r hr]; decide
    have hupper : before.filter (fun r => decide (key r ≤ key last) && cond r) = [] :=
      hdrop _ fun r hr => by
        rw [decide_eq_false (not_le.2 (hbefore r hr last (List.mem_cons_self ..))), Bool.false_and]
    have hupper' : before.filter (fun r => decide (key r < key last) && cond r) = [] :=
      hdrop _ fun r hr => by
        rw [decide_eq_false (lt_asymm (hbefore r hr last (List.mem_cons_self ..))), Bool.false_and]
    have hlower : after.filter (fun r => decide (key r ≤ key last) && cond r) =
        after.filter fun r => decide (key r < key last) && cond r :=
      List.filter_congr fun r hr => by
        have hlt := (List.pairwise_cons.1 hafter).1 r hr
        rw [decide_eq_true hlt, decide_eq_true hlt.le]
    unfold cursorPage page
    simp only [Option.all_some]
    rw [descending_filter hkey, descending_filter hkey, hsplit, List.filter_append,
      List.filter_append, hupper, hupper', List.filter_cons_of_pos (by simp [hc]),
      List.filter_cons_of_neg (by simp), hlower]
    rfl

end order

section jobs
variable {α κ σ ε : Type} [LinearOrder κ] {key : α → κ} {rows : List α} {take : ℕ}
  {cond : σ → α → Bool} {work : σ → List α → Except ε σ} {one : σ → α → σ} {I : σ → Prop} {s : σ}

/-- Page by page until a page is empty: the final state and the rows worked on, or the error of the
    page that failed; `none` when the fuel is used up. -/
def job (key : α → κ) (rows : List α) (take : ℕ) (cond : σ → α → Bool)
    (work : σ → List α → Except ε σ) : ℕ → σ → Option κ → Option (Except ε (σ × List α))
  | 0, _, _ => none
  | fuel + 1, s, cursor =>
    let batch := page key rows take (cond s) cursor
    if batch.isEmpty then some (.ok (s, []))
    else
      match work s batch with
      | .error e => some (.error e)
      | .ok s' =>
        (job key rows take cond work fuel s' (batch.getLast?.map key)).map fun result =>
          result.map fun (s'', seen) => (s'', batch ++ seen)

/-- The same, each page starting from the last row of the page before. -/
def cursorJob (key : α → κ) (rows : List α) (take : ℕ) (cond : σ → α → Bool)
    (work : σ → List α → Except ε σ) : ℕ → σ → Option κ → Option (Except ε (σ × List α))
  | 0, _, _ => none
  | fuel + 1, s, cursor =>
    let batch := cursorPage key rows take (cond s) cursor
    if batch.isEmpty then some (.ok (s, []))
    else
      match work s batch with
      | .error e => some (.error e)
      | .ok s' =>
        (cursorJob key rows take cond work fuel s' (batch.getLast?.map key)).map fun result =>
          result.map fun (s'', seen) => (s'', batch ++ seen)

/-- What every batch keeps, the job keeps, and what every batch that fails shows of its error holds
    of the error of the job. -/
theorem cursorJob_keeps {P : σ → Prop} {E : ε → Prop}
    (hok : ∀ {s s' batch}, P s → work s batch = .ok s' → P s')
    (herror : ∀ {s batch e}, P s → work s batch = .error e → E e)
    (fuel : ℕ) {s : σ} {cursor : Option κ} (hP : P s) :
    (∀ {s' seen}, cursorJob key rows take cond work fuel s cursor = some (.ok (s', seen)) → P s') ∧
      ∀ {e}, cursorJob key rows take cond work fuel s cursor = some (.error e) → E e := by
  induction fuel generalizing s cursor with
  | zero => exact ⟨nofun, nofun⟩
  | succ fuel ih =>
    simp only [cursorJob]
    split
    · exact ⟨fun h => by cases h; exact hP, nofun⟩
    split
    · rename_i e he
      exact ⟨nofun, fun h => by cases h; exact herror hP he⟩
    · rename_i s₁ hs₁
      obtain ⟨ihok, iherror⟩ := @ih s₁
        ((cursorPage key rows take (cond s) cursor).getLast?.map key) (hok hP hs₁)
      constructor
      · intro s' seen h
        obtain ⟨r, hr, h⟩ := Option.map_eq_some_iff.1 h
        cases r with
        | error e => cases h
        | ok r => cases h; exact ihok hr
      · intro e h
        obtain ⟨r, hr, h⟩ := Option.map_eq_some_iff.1 h
        cases r with
        | error e' => cases h; exact iherror hr
        | ok r => cases h

/-- Work that goes row by row as `one` says, under an invariant, each row deciding only its own
    place in the filter. -/
structure Works (rows : List α) (cond : σ → α → Bool) (work : σ → List α → Except ε σ)
    (one : σ → α → σ) (I : σ → Prop) : Prop where
  batch : ∀ {s batch}, I s → batch.Nodup → (∀ r ∈ batch, r ∈ rows ∧ cond s r = true) →
    work s batch = .ok (batch.foldl one s)
  keeps : ∀ {s r}, I s → r ∈ rows → cond s r = true → I (one s r)
  others : ∀ {s r r'}, I s → r ∈ rows → r' ∈ rows → r' ≠ r → cond (one s r) r' = cond s r'

/-- The rows that match below the cursor, in the order in which they are worked on. -/
def due (key : α → κ) (rows : List α) (cond : α → Bool) (cursor : Option κ) : List α :=
  descending key (rows.filter fun r => cursor.all (fun c => decide (key r < c)) && cond r)

theorem page_eq (cond : α → Bool) (cursor : Option κ) :
    page key rows take cond cursor = (due key rows cond cursor).take take := rfl

theorem mem_due {cond : α → Bool} {cursor : Option κ} {r : α} :
    r ∈ due key rows cond cursor ↔
      r ∈ rows ∧ (∀ c ∈ cursor, key r < c) ∧ cond r = true := by
  rw [due, mem_descending, List.mem_filter, Bool.and_eq_true, Option.all_eq_true]
  simp only [decide_eq_true_eq, Option.mem_def]

theorem due_nodup (hkey : (rows.map key).Nodup) (cond : α → Bool) (cursor : Option κ) :
    (due key rows cond cursor).Nodup :=
  ((descending_perm key _).nodup_iff).2 (hkey.of_map.filter _)

/-- After a batch the invariant holds and the other rows match as before. -/
theorem Works.fold (hw : Works rows cond work one I) {batch : List α} {s : σ} (hI : I s)
    (hnd : batch.Nodup) (hmatch : ∀ r ∈ batch, r ∈ rows ∧ cond s r = true) :
    I (batch.foldl one s) ∧ ∀ r ∈ rows, r ∉ batch → cond (batch.foldl one s) r = cond s r := by
  induction batch generalizing s with
  | nil => exact ⟨hI, fun _ _ _ => rfl⟩
  | cons r batch ih =>
    obtain ⟨hr, hc⟩ := hmatch r (List.mem_cons_self ..)
    obtain ⟨hnew, hnd'⟩ := List.nodup_cons.1 hnd
    have hmatch' : ∀ r' ∈ batch, r' ∈ rows ∧ cond (one s r) r' = true := by
      intro r' hr'
      obtain ⟨hrows, hc'⟩ := hmatch r' (List.mem_cons_of_mem _ hr')
      have hne : r' ≠ r := fun h => hnew (h ▸ hr')
      exact ⟨hrows, (hw.others hI hr hrows hne).trans hc'⟩
    obtain ⟨hI', hrest⟩ := ih (hw.keeps hI hr hc) hnd' hmatch'
    refine ⟨hI', fun r' hr' hnot => ?_⟩
    exact (hrest r' hr' (List.not_mem_of_not_mem_cons hnot)).trans
      (hw.others hI hr hr' (List.ne_of_not_mem_cons hnot))

/-- When the rows worked on stay in the filter, every row does. -/
theorem Works.fold_stays (hw : Works rows cond work one I)
    (hstay : ∀ {s r}, I s → r ∈ rows → cond s r = true → cond (one s r) r = true)
    {batch : List α} {s : σ} (hI : I s) (hnd : batch.Nodup)
    (hmatch : ∀ r ∈ batch, r ∈ rows ∧ cond s r = true) {r : α} (hr : r ∈ rows)
    (hc : cond s r = true) : cond (batch.foldl one s) r = true := by
  induction batch generalizing s with
  | nil => exact hc
  | cons r₀ batch ih =>
    obtain ⟨hr₀, hc₀⟩ := hmatch r₀ (List.mem_cons_self ..)
    have hstep : ∀ {r'}, r' ∈ rows → cond s r' = true → cond (one s r₀) r' = true := by
      intro r' hr' hc'
      by_cases hne : r' = r₀
      · rw [hne]
        exact hstay hI hr₀ hc₀
      · rwa [hw.others hI hr₀ hr' hne]
    have hmatch' : ∀ r' ∈ batch, r' ∈ rows ∧ cond (one s r₀) r' = true := by
      intro r' hr'
      obtain ⟨hrow, hc'⟩ := hmatch r' (List.mem_cons_of_mem _ hr')
      exact ⟨hrow, hstep hrow hc'⟩
    exact ih (hw.keeps hI hr₀ hc₀) (List.nodup_cons.1 hnd).2 hmatch' (hstep hr hc)

theorem due_strict (hkey : (rows.map key).Nodup) (cond : α → Bool) (cursor : Option κ) :
    (due key rows cond cursor).Pairwise fun a b => key b < key a := by
  rw [due, descending_filter hkey]
  exact (descending_strict hkey).filter _

/-- The last row of a batch has its least key. -/
theorem due_above {cond : α → Bool} {cursor : Option κ} {batch rest : List α} {last : α}
    (hkey : (rows.map key).Nodup) (hdue : due key rows cond cursor = batch ++ [last] ++ rest) {r : α}
    (hr : r ∈ batch ++ [last]) : key last ≤ key r := by
  have hstrict := due_strict hkey cond cursor
  rw [hdue] at hstrict
  obtain ⟨-, -, hlast⟩ := List.pairwise_append.1 (List.pairwise_append.1 hstrict).1
  rcases List.mem_append.1 hr with hr | hr
  · exact (hlast r hr last (List.mem_singleton_self _)).le
  · rw [List.mem_singleton.1 hr]

/-- Below the last row of a batch stands what the batch left over. -/
theorem due_below {cond : α → Bool} {cursor : Option κ} {batch rest : List α} {last : α}
    (hkey : (rows.map key).Nodup) (hdue : due key rows cond cursor = batch ++ [last] ++ rest) :
    (due key rows cond cursor).filter (fun r => decide (key r < key last)) = rest := by
  have hstrict := due_strict hkey cond cursor
  rw [hdue] at hstrict
  have hbatch : (batch ++ [last]).filter (fun r => decide (key r < key last)) = [] := by
    refine List.filter_eq_nil_iff.2 fun r hr => ?_
    rw [decide_eq_true_eq, not_lt]
    exact due_above hkey hdue hr
  have hrest : rest.filter (fun r => decide (key r < key last)) = rest := by
    refine List.filter_eq_self.2 fun r hr => decide_eq_true ?_
    exact (List.pairwise_append.1 hstrict).2.2 last (by simp) r hr
  rw [hdue, List.filter_append, hbatch, hrest, List.nil_append]

/-- After a batch, the rows due below its last row are those the page left over. -/
theorem Works.due_next (hw : Works rows cond work one I) (hkey : (rows.map key).Nodup) (hI : I s)
    {cursor : Option κ} {batch rest : List α} {last : α}
    (hdue : due key rows (cond s) cursor = batch ++ [last] ++ rest) :
    due key rows (cond ((batch ++ [last]).foldl one s)) (some (key last)) = rest := by
  have hnd : (batch ++ [last] ++ rest).Nodup := hdue ▸ due_nodup hkey (cond s) cursor
  have hmem : ∀ r ∈ batch ++ [last], r ∈ due key rows (cond s) cursor := fun r hr => by
    rw [hdue]
    exact List.mem_append_left _ hr
  obtain ⟨-, hcond⟩ := hw.fold hI (List.nodup_append.1 hnd).1 fun r hr =>
    ⟨(mem_due.1 (hmem r hr)).1, (mem_due.1 (hmem r hr)).2.2⟩
  have hlast := (mem_due.1 (hmem last (by simp))).2.1
  rw [← due_below hkey hdue]
  simp only [due]
  rw [descending_filter hkey, descending_filter hkey, List.filter_filter]
  refine List.filter_congr fun r hr => ?_
  by_cases hlt : key r < key last
  · have hnot : r ∉ batch ++ [last] := fun h => absurd hlt (not_lt.2 (due_above hkey hdue h))
    have hcursor : cursor.all (fun c => decide (key r < c)) = true := by
      simp only [Option.all_eq_true, decide_eq_true_eq]
      exact fun c hc => hlt.trans (hlast c hc)
    rw [hcond r (mem_descending.1 hr) hnot, hcursor]
    simp [hlt]
  · simp [hlt]

/-- Enough fuel: the job works on every row that matched at the start, once and in order. -/
theorem Works.job_eq (hw : Works rows cond work one I) (hkey : (rows.map key).Nodup)
    (htake : 1 ≤ take) (fuel : ℕ) {s : σ} (cursor : Option κ) (hI : I s)
    (hlt : (due key rows (cond s) cursor).length < fuel) :
    job key rows take cond work fuel s cursor =
      some (.ok ((due key rows (cond s) cursor).foldl one s, due key rows (cond s) cursor)) := by
  induction fuel generalizing s cursor with
  | zero => exact absurd hlt (Nat.not_lt_zero _)
  | succ fuel ih =>
    cases hpage : page key rows take (cond s) cursor with
    | nil =>
      have hnone : due key rows (cond s) cursor = [] := by
        rw [page_eq, List.take_eq_nil_iff] at hpage
        exact hpage.resolve_left (by omega)
      simp [job, hpage, hnone]
    | cons r rs =>
      obtain ⟨batch, last, hbatch⟩ : ∃ batch last, r :: rs = batch ++ [last] :=
        ⟨_, _, (List.dropLast_append_getLast (List.cons_ne_nil r rs)).symm⟩
      obtain ⟨rest, hdue⟩ : ∃ rest, due key rows (cond s) cursor = batch ++ [last] ++ rest := by
        refine ⟨(due key rows (cond s) cursor).drop take, ?_⟩
        rw [← hbatch, ← hpage, page_eq, List.take_append_drop]
      have hnd : (batch ++ [last] ++ rest).Nodup := hdue ▸ due_nodup hkey (cond s) cursor
      have hmatch : ∀ x ∈ batch ++ [last], x ∈ rows ∧ cond s x = true := fun x hx => by
        have hx' : x ∈ due key rows (cond s) cursor := hdue ▸ List.mem_append_left _ hx
        exact ⟨(mem_due.1 hx').1, (mem_due.1 hx').2.2⟩
      have hwork := hw.batch hI (List.nodup_append.1 hnd).1 hmatch
      have hnext := hw.due_next hkey hI hdue
      have hlen : rest.length < fuel := by
        rw [hdue, List.length_append, List.length_append, List.length_singleton] at hlt
        omega
      have hrest := ih (some (key last)) (hw.fold hI (List.nodup_append.1 hnd).1 hmatch).1
        (by rw [hnext]; exact hlen)
      rw [hnext] at hrest
      rw [hbatch] at hpage
      have hlast : (batch ++ [last]).getLast? = some last := by simp
      have hfull : (batch ++ [last]).isEmpty = false := by simp
      simp only [job, hpage, hwork, hlast, hfull, Option.map_some, hrest, Bool.false_eq_true,
        if_false]
      rw [hdue, show (batch ++ [last] ++ rest).foldl one s =
        rest.foldl one ((batch ++ [last]).foldl one s) from List.foldl_append]
      rfl

/-- When the rows worked on stay in the filter, it makes no difference where a page starts. -/
theorem Works.cursorJob_eq (hw : Works rows cond work one I) (hkey : (rows.map key).Nodup)
    (hstay : ∀ {s r}, I s → r ∈ rows → cond s r = true → cond (one s r) r = true)
    (fuel : ℕ) {s : σ} {cursor : Option κ} (hI : I s)
    (hcursor : ∀ c ∈ cursor, ∃ r ∈ rows, key r = c ∧ cond s r = true) :
    cursorJob key rows take cond work fuel s cursor = job key rows take cond work fuel s cursor := by
  induction fuel generalizing s cursor with
  | zero => rfl
  | succ fuel ih =>
    have hpage : cursorPage key rows take (cond s) cursor = page key rows take (cond s) cursor :=
      cursorPage_eq hkey hcursor
    simp only [cursorJob, job, hpage]
    split
    · rfl
    have hmatch : ∀ x ∈ page key rows take (cond s) cursor, x ∈ rows ∧ cond s x = true := by
      intro x hx
      obtain ⟨hrow, -, hcond⟩ := mem_due.1 (List.mem_of_mem_take hx)
      exact ⟨hrow, hcond⟩
    have hnd : (page key rows take (cond s) cursor).Nodup :=
      (List.take_sublist _ _).nodup (due_nodup hkey (cond s) cursor)
    rw [hw.batch hI hnd hmatch]
    simp only
    rw [ih (hw.fold hI hnd hmatch).1]
    intro c hc
    obtain ⟨last, hlast, rfl⟩ := Option.map_eq_some_iff.1 hc
    obtain ⟨hrow, hcond⟩ := hmatch last (List.mem_of_getLast? hlast)
    exact ⟨last, hrow, rfl, hw.fold_stays hstay hI hnd hmatch hrow hcond⟩

end jobs

end Keyset
