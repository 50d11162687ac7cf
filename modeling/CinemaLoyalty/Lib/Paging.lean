import Mathlib.Data.List.Nodup
import Mathlib.Data.List.Pairwise
import Mathlib.Data.List.Perm.Basic
import Mathlib.Data.List.Sort
import Mathlib.Data.Nat.Basic

/-! @lib Paging | scheme:slices | layer:library

    Reading a list page by page with an offset, every page being cut from an ordering of its own.
    The order is a total preorder: rows that tie may stand in any order, and in a different one for
    each page. The pages hold every row once, whatever the orders, exactly if no rows that tie lie on
    both sides of the end of a page. -/

namespace Paging

variable {α : Type} {le : α → α → Prop}

/-- An ordering of the rows that the sort key allows. -/
def Admits (le : α → α → Prop) (rows order : List α) : Prop :=
  order.Perm rows ∧ order.Pairwise le

/-- `OFFSET skip LIMIT take`. -/
def page (order : List α) (skip take : ℕ) : List α := (order.drop skip).take take

section counts
variable [DecidableRel le]

/-- The number of rows strictly before `a`. -/
def before (le : α → α → Prop) [DecidableRel le] (rows : List α) (a : α) : ℕ :=
  rows.countP fun b => !decide (le a b)

/-- The number of rows that may stand at or before `a`. -/
def upto (le : α → α → Prop) [DecidableRel le] (rows : List α) (a : α) : ℕ :=
  rows.countP fun b => decide (le b a)

/-- Rows that tie lie on one page. -/
def OnePage (le : α → α → Prop) [DecidableRel le] (rows : List α) (take : ℕ) : Prop :=
  ∀ a ∈ rows, before le rows a / take = (upto le rows a - 1) / take

instance (rows : List α) (take : ℕ) : Decidable (OnePage le rows take) :=
  inferInstanceAs (Decidable (∀ a ∈ rows, _))

end counts

/-- Rows of which no two tie stand in one order only. -/
theorem Admits.unique {rows order strict : List α} (h : Admits le rows order)
    (hperm : strict.Perm rows) (hstrict : strict.Pairwise fun a b => le a b ∧ ¬le b a) :
    order = strict := by
  have hties : strict.Pairwise fun a b => ¬(le a b ∧ le b a) :=
    hstrict.imp fun hab htie => hab.2 htie.2
  have hsame : ∀ a b, a ∈ order → b ∈ strict → le a b → le b a → a = b := by
    intro a b ha hb hab hba
    by_contra hne
    have ha' : a ∈ strict := (h.1.trans hperm.symm).mem_iff.1 ha
    have hsymm : Std.Symm fun a b => ¬(le a b ∧ le b a) := ⟨fun _ _ hxy htie => hxy htie.symm⟩
    exact hties.forall ha' hb hne ⟨hab, hba⟩
  exact (h.1.trans hperm.symm).eq_of_pairwise hsame h.2 (hstrict.imp fun hab => hab.1)

theorem length_page {order : List α} {skip take : ℕ} :
    (page order skip take).length = min take (order.length - skip) := by
  rw [page, List.length_take, List.length_drop]

/-- A page is empty behind the last row only. -/
theorem page_eq_nil {order : List α} {skip take : ℕ} (htake : 1 ≤ take) :
    page order skip take = [] ↔ order.length ≤ skip := by
  rw [← List.length_eq_zero_iff, length_page]
  omega

/-- The rows between two positions, when the positions decide the filter. -/
theorem filter_eq_page {order : List α} {p : α → Bool} {skip take : ℕ}
    (h : ∀ l a r, order = l ++ a :: r →
      (p a = true ↔ skip ≤ l.length ∧ l.length < skip + take)) :
    order.filter p = page order skip take := by
  induction order generalizing skip take with
  | nil => simp [page]
  | cons x xs ih =>
    have hx := h [] x xs rfl
    have hxs : ∀ l a r, xs = l ++ a :: r →
        (p a = true ↔ skip ≤ l.length + 1 ∧ l.length + 1 < skip + take) := by
      intro l a r hl
      exact h (x :: l) a r (by rw [hl, List.cons_append])
    cases skip with
    | succ skip =>
      have hrest := @ih skip take fun l a r hl => by
        rw [hxs l a r hl]
        omega
      have hno : p x = false := by
        rw [Bool.eq_false_iff, ne_eq, hx, List.length_nil]
        omega
      rw [List.filter_cons, hno, if_neg Bool.false_ne_true, hrest]
      rfl
    | zero =>
      cases take with
      | zero =>
        have hrest := @ih 0 0 fun l a r hl => by
          rw [hxs l a r hl]
          omega
        have hno : p x = false := by
          rw [Bool.eq_false_iff, ne_eq, hx]
          omega
        rw [List.filter_cons, hno, if_neg Bool.false_ne_true, hrest]
        simp [page]
      | succ take =>
        have hrest := @ih 0 take fun l a r hl => by
          rw [hxs l a r hl]
          omega
        have hyes : p x = true := by
          rw [hx, List.length_nil]
          omega
        rw [List.filter_cons, if_pos hyes, hrest]
        rfl

section partition
variable {g : α → ℕ}

/-- Rows sorted into numbered pages are all there. -/
theorem perm_fibers (g : α → ℕ) (rows : List α) (n : ℕ) :
    ((List.range n).flatMap fun k => rows.filter fun a => decide (g a = k)).Perm
      (rows.filter fun a => decide (g a < n)) := by
  induction n with
  | zero => simp
  | succ n ih =>
    rw [List.range_succ, List.flatMap_append, List.flatMap_singleton]
    refine (ih.append_right _).trans ?_
    have hlow : (rows.filter fun a => decide (g a < n + 1)).filter (fun a => decide (g a < n)) =
        rows.filter fun a => decide (g a < n) := by
      rw [List.filter_filter]
      refine List.filter_congr fun a _ => ?_
      rw [← Bool.decide_and, decide_eq_decide]
      omega
    have htop : (rows.filter fun a => decide (g a < n + 1)).filter (fun a => !decide (g a < n)) =
        rows.filter fun a => decide (g a = n) := by
      rw [List.filter_filter]
      refine List.filter_congr fun a _ => ?_
      rw [← decide_not, ← Bool.decide_and, decide_eq_decide]
      omega
    have hsplit := List.filter_append_perm (fun a => decide (g a < n))
      (rows.filter fun a => decide (g a < n + 1))
    rwa [hlow, htop] at hsplit

end partition

/-! ### Places in an ordering -/

section places
variable {rows order l r : List α} {a x : α}

theorem Admits.split (h : Admits le rows order) (hl : order = l ++ a :: r) :
    (∀ b ∈ l, le b a) ∧ ∀ b ∈ r, le a b := by
  have hp := h.2
  rw [hl, List.pairwise_append] at hp
  exact ⟨fun b hb => hp.2.2 b hb a (List.mem_cons_self ..), (List.pairwise_cons.1 hp.2.1).1⟩

variable [DecidableRel le]

theorem before_eq (h : Admits le rows order) (hl : order = l ++ a :: r) (b : α) :
    before le rows b = l.countP (fun c => !decide (le b c)) +
      (a :: r).countP (fun c => !decide (le b c)) := by
  rw [before, ← h.1.countP_eq, hl, List.countP_append]

theorem upto_eq (h : Admits le rows order) (hl : order = l ++ a :: r) (b : α) :
    upto le rows b = l.countP (fun c => decide (le c b)) +
      (a :: r).countP (fun c => decide (le c b)) := by
  rw [upto, ← h.1.countP_eq, hl, List.countP_append]

/-- Between these places stand only ties. -/
theorem tie_between [IsTrans α le] (h : Admits le rows order) (hl : order = l ++ x :: r)
    (hlo : before le rows a ≤ l.length) (hhi : l.length < upto le rows a) : le x a ∧ le a x := by
  obtain ⟨hbelow, habove⟩ := h.split hl
  constructor
  · by_contra hx
    have hnone : (x :: r).countP (fun c => decide (le c a)) = 0 := by
      refine List.countP_eq_zero.2 fun c hc => ?_
      rw [decide_eq_true_eq]
      intro hca
      rcases List.mem_cons.1 hc with rfl | hc
      · exact hx hca
      · exact hx (IsTrans.trans _ _ _ (habove c hc) hca)
    rw [upto_eq h hl, hnone] at hhi
    have hle := @List.countP_le_length _ (fun c => decide (le c a)) l
    omega
  · by_contra hx
    have hall : l.countP (fun c => !decide (le a c)) = l.length := by
      refine List.countP_eq_length.2 fun c hc => ?_
      simp only [Bool.not_eq_true', decide_eq_false_iff_not]
      exact fun hac => hx (IsTrans.trans _ _ _ hac (hbelow c hc))
    have hself : 0 < (x :: r).countP (fun c => !decide (le a c)) :=
      List.countP_pos_iff.2 ⟨x, List.mem_cons_self .., by simpa using hx⟩
    rw [before_eq h hl, hall] at hlo
    omega

variable [Std.Total le]

theorem le_self (le : α → α → Prop) [Std.Total le] (a : α) : le a a :=
  (Std.Total.total (r := le) a a).elim id id

/-- A row stands between the rows before it and the last place its ties may take. -/
theorem before_le (h : Admits le rows order) (hl : order = l ++ a :: r) :
    before le rows a ≤ l.length := by
  have hnone : (a :: r).countP (fun c => !decide (le a c)) = 0 := by
    refine List.countP_eq_zero.2 fun c hc => ?_
    rcases List.mem_cons.1 hc with rfl | hc
    · simpa using le_self le c
    · simpa using (h.split hl).2 c hc
  rw [before_eq h hl, hnone, Nat.add_zero]
  exact List.countP_le_length

theorem lt_upto (h : Admits le rows order) (hl : order = l ++ a :: r) :
    l.length < upto le rows a := by
  have hall : l.countP (fun c => decide (le c a)) = l.length :=
    List.countP_eq_length.2 fun c hc => by simpa using (h.split hl).1 c hc
  have hself : 0 < (a :: r).countP (fun c => decide (le c a)) :=
    List.countP_pos_iff.2 ⟨a, List.mem_cons_self .., by simpa using le_self le a⟩
  rw [upto_eq h hl, hall]
  omega

/-- With ties on one page, the page of a row does not depend on the ordering. -/
theorem OnePage.place {take : ℕ} (hone : OnePage le rows take) (h : Admits le rows order)
    (hl : order = l ++ a :: r) : l.length / take = before le rows a / take := by
  have ha : a ∈ rows := h.1.mem_iff.1 (by rw [hl]; simp)
  have hlo := Nat.div_le_div_right (c := take) (before_le h hl)
  have hhi := Nat.div_le_div_right (c := take) (Nat.le_sub_one_of_lt (lt_upto h hl))
  rw [← hone a ha] at hhi
  exact le_antisymm hhi hlo

/-- Then a page holds the rows whose place falls on it. -/
theorem OnePage.page_eq {take : ℕ} (htake : 1 ≤ take) (hone : OnePage le rows take)
    (h : Admits le rows order) (k : ℕ) : page order (k * take) take =
      order.filter fun a => decide (before le rows a / take = k) := by
  refine (filter_eq_page fun l a r hl => ?_).symm
  rw [decide_eq_true_eq, ← hone.place h hl, Nat.div_eq_iff (by omega)]
  constructor <;> intro hk <;> constructor <;> omega

end places

/-! ### Walks -/

/-- The row at a position is on the page of the position. -/
theorem mem_page {order l r : List α} {x : α} {skip take : ℕ} (hl : order = l ++ x :: r)
    (hlo : skip ≤ l.length) (hhi : l.length < skip + take) : x ∈ page order skip take := by
  refine List.mem_iff_getElem?.2 ⟨l.length - skip, ?_⟩
  have hpos : l.length - skip < take := by omega
  rw [page, List.getElem?_take_of_lt hpos, List.getElem?_drop, Nat.add_sub_cancel' hlo, hl,
    List.getElem?_append_right (le_refl _), Nat.sub_self, List.getElem?_cons_zero]

/-- Neighbours that tie may change places. -/
theorem Admits.swap {l r : List α} {x y : α} (h : Admits le rows (l ++ x :: y :: r))
    (hyx : le y x) : Admits le rows (l ++ y :: x :: r) := by
  refine ⟨((List.Perm.swap x y r).append_left l).trans h.1, ?_⟩
  obtain ⟨hl, htail, hacross⟩ := List.pairwise_append.1 h.2
  obtain ⟨hx, htail'⟩ := List.pairwise_cons.1 htail
  obtain ⟨hy, hr⟩ := List.pairwise_cons.1 htail'
  refine List.pairwise_append.2 ⟨hl, ?_, ?_⟩
  · refine List.pairwise_cons.2 ⟨fun c hc => ?_, List.pairwise_cons.2 ⟨fun c hc => ?_, hr⟩⟩
    · rcases List.mem_cons.1 hc with rfl | hc
      · exact hyx
      · exact hy c hc
    · exact hx c (List.mem_cons_of_mem _ hc)
  · intro a ha c hc
    refine hacross a ha c ?_
    simp only [List.mem_cons] at hc ⊢
    tauto

/-- Two neighbours of a list. -/
theorem exists_neighbours {order : List α} {i : ℕ} (h : i + 1 < order.length) :
    ∃ l x y r, order = l ++ x :: y :: r ∧ l.length = i := by
  have hlen : (order.take i).length = i := by rw [List.length_take]; omega
  have hdrop : (order.drop i).length = order.length - i := List.length_drop
  match hrest : order.drop i with
  | [] => rw [hrest, List.length_nil] at hdrop; omega
  | [x] => rw [hrest, List.length_singleton] at hdrop; omega
  | x :: y :: r => exact ⟨order.take i, x, y, r, by rw [← hrest, List.take_append_drop], hlen⟩

section walks
variable [DecidableRel le] [Std.Total le] [IsTrans α le] {rows : List α} {take : ℕ}

theorem admits_insertionSort (le : α → α → Prop) [DecidableRel le] [Std.Total le] [IsTrans α le]
    (rows : List α) : Admits le rows (rows.insertionSort le) :=
  ⟨List.perm_insertionSort _ _, List.pairwise_insertionSort _ _⟩

/-- The first rows: `LIMIT take` without an offset. -/
theorem exists_first (le : α → α → Prop) [DecidableRel le] [Std.Total le] [IsTrans α le]
    (hrows : rows.Nodup) (take : ℕ) : ∃ first : List α,
      first.Nodup ∧ first.length ≤ take ∧ (∀ a ∈ first, a ∈ rows) ∧
        ∀ a ∈ rows, a ∉ first → first.length = take ∧ ∀ b ∈ first, le b a := by
  have hadm := admits_insertionSort le rows
  generalize rows.insertionSort le = order at hadm
  have htake : (order.take take).Sublist order := List.take_sublist _ _
  refine ⟨order.take take, htake.nodup (hadm.1.nodup_iff.2 hrows), by simp,
    fun a ha => hadm.1.mem_iff.1 (htake.subset ha), fun a ha hnot => ?_⟩
  have hin : a ∈ order.take take ++ order.drop take := by
    rw [List.take_append_drop]
    exact hadm.1.mem_iff.2 ha
  have hdrop := (List.mem_append.1 hin).resolve_left hnot
  have hlong : take < order.length := by
    by_contra hshort
    rw [List.drop_eq_nil_of_le (not_lt.1 hshort)] at hdrop
    cases hdrop
  have hsorted := hadm.2
  rw [← List.take_append_drop take order] at hsorted
  exact ⟨by simp [hlong.le], fun b hb => (List.pairwise_append.1 hsorted).2.2 b hb a hdrop⟩

/-- The places of a row lie within the rows. -/
theorem before_lt_upto {a : α} (ha : a ∈ rows) :
    before le rows a < upto le rows a ∧ before le rows a < rows.length := by
  have hadm := admits_insertionSort le rows
  obtain ⟨l, r, hl⟩ := List.append_of_mem (hadm.1.mem_iff.2 ha)
  have hlen := hadm.1.length_eq
  rw [hl, List.length_append, List.length_cons] at hlen
  have hlo := before_le hadm hl
  have hhi := lt_upto hadm hl
  omega

/-- With ties on one page, the pages hold every row once, whatever their orderings. -/
theorem OnePage.perm (htake : 1 ≤ take) (hone : OnePage le rows take) {orders : ℕ → List α}
    (h : ∀ k, Admits le rows (orders k)) {n : ℕ} (hn : rows.length ≤ n * take) :
    ((List.range n).flatMap fun k => page (orders k) (k * take) take).Perm rows := by
  have hpages : ∀ k ∈ List.range n, (page (orders k) (k * take) take).Perm
      (rows.filter fun a => decide (before le rows a / take = k)) := fun k _ => by
    rw [hone.page_eq htake (h k)]
    exact (h k).1.filter _
  have hall : (rows.filter fun a => decide (before le rows a / take < n)) = rows := by
    refine List.filter_eq_self.2 fun a ha => decide_eq_true ?_
    rw [Nat.div_lt_iff_lt_mul (by omega)]
    exact (before_lt_upto ha).2.trans_le hn
  have hfibers := perm_fibers (fun a => before le rows a / take) rows n
  rw [hall] at hfibers
  exact (List.Perm.flatMap_left _ hpages).trans hfibers

/-- Pages that share a row are not disjoint. -/
theorem not_nodup_of_shared {pages : ℕ → List α} {j k n : ℕ} {x : α} (hjk : j < k) (hkn : k < n)
    (hj : x ∈ pages j) (hk : x ∈ pages k) : ¬((List.range n).flatMap pages).Nodup := by
  intro hnd
  have hdisjoint := (List.nodup_flatMap.1 hnd).2
  rw [List.pairwise_iff_getElem] at hdisjoint
  have hshared := hdisjoint j k (by rw [List.length_range]; omega) (by rwa [List.length_range]) hjk
  simp only [Function.onFun, List.getElem_range] at hshared
  exact hshared hj hk

/-- A tie on two pages has neighbours that tie across the end of a page. -/
theorem exists_boundary (htake : 1 ≤ take) (hone : ¬OnePage le rows take) :
    ∃ j l x y r, rows.insertionSort le = l ++ x :: y :: r ∧ l.length + 1 = j * take + take ∧
      le y x := by
  simp only [OnePage, not_forall] at hone
  obtain ⟨a, ha, hne⟩ := hone
  have hadm := admits_insertionSort le rows
  have hlt : before le rows a < upto le rows a := (before_lt_upto ha).1
  have hle : upto le rows a ≤ rows.length := List.countP_le_length
  -- the page whose first row ties with the last row of the page before it
  obtain ⟨k, hk⟩ : ∃ k, k = (upto le rows a - 1) / take := ⟨_, rfl⟩
  have hhi : k * take ≤ upto le rows a - 1 := hk ▸ Nat.div_mul_le_self _ _
  have hlo : before le rows a < k * take := by
    rw [← Nat.div_lt_iff_lt_mul (by omega), hk]
    have hmono := Nat.div_le_div_right (c := take) (Nat.le_sub_one_of_lt hlt)
    omega
  obtain ⟨j, rfl⟩ : ∃ j, k = j + 1 := Nat.exists_eq_succ_of_ne_zero (by rintro rfl; omega)
  rw [Nat.succ_mul] at hhi hlo
  obtain ⟨l, x, y, r, hl, hlen⟩ : ∃ l x y r, rows.insertionSort le = l ++ x :: y :: r ∧
      l.length + 1 = j * take + take := by
    have hlen := hadm.1.length_eq
    obtain ⟨l, x, y, r, hl, hpos⟩ := @exists_neighbours _ (rows.insertionSort le)
      (j * take + take - 1) (by omega)
    exact ⟨l, x, y, r, hl, by omega⟩
  have hx := tie_between hadm hl (by omega : before le rows a ≤ l.length) (by omega)
  have hl' : rows.insertionSort le = (l ++ [x]) ++ y :: r := by
    rw [hl, List.append_assoc, List.singleton_append]
  have hlen' : (l ++ [x]).length = j * take + take := by
    rw [List.length_append, List.length_singleton, hlen]
  have hy := tie_between hadm hl' (by omega : before le rows a ≤ (l ++ [x]).length) (by omega)
  exact ⟨j, l, x, y, r, hl, hlen, IsTrans.trans _ _ _ hy.1 hx.2⟩

/-- Ties on two pages can be read twice. -/
theorem exists_repeat (htake : 1 ≤ take) (hone : ¬OnePage le rows take) :
    ∃ orders : ℕ → List α, (∀ k, Admits le rows (orders k)) ∧ ∀ n, rows.length ≤ n * take →
      ¬((List.range n).flatMap fun k => page (orders k) (k * take) take).Nodup := by
  obtain ⟨j, l, x, y, r, hl, hlen, hyx⟩ := exists_boundary htake hone
  have hadm := admits_insertionSort le rows
  have hrows : rows.length = l.length + 1 + (r.length + 1) := by
    rw [← hadm.1.length_eq, hl]
    simp only [List.length_append, List.length_cons]
    omega
  have hswap : Admits le rows (l ++ y :: x :: r) := (hl ▸ hadm).swap hyx
  refine ⟨fun i => if i = j + 1 then l ++ y :: x :: r else rows.insertionSort le, fun i => ?_,
    fun n hn => ?_⟩
  · dsimp only
    split
    · exact hswap
    · exact hadm
  · have hjn : j + 1 < n := by
      refine Nat.lt_of_mul_lt_mul_right (a := take) ?_
      rw [Nat.succ_mul]
      omega
    refine not_nodup_of_shared (Nat.lt_succ_self j) hjn (x := x) ?_ ?_
    · simp only [if_neg (Nat.ne_of_lt (Nat.lt_succ_self j))]
      exact mem_page hl (by omega) (by omega)
    · simp only [Nat.succ_eq_add_one, if_true, Nat.succ_mul]
      have hlen' : (l ++ [y]).length = j * take + take := by
        rw [List.length_append, List.length_singleton, hlen]
      have hsplit : l ++ y :: x :: r = (l ++ [y]) ++ x :: r := by simp
      exact mem_page hsplit (by omega) (by omega)

end walks

/-! ### Answers -/

section answers
variable {β ι ε : Type} {rows : List α} {take : ℕ} {name : α → ι} {named : β → ι} {g : α → β}
  {answer : (List α → List α) → ℕ → Except ε (List β)}

/-- Asking for one page after the other until one is empty names every row once, whatever ordering
    the rows have at each question. `answer orderBy k` is the page of the `k`-th question. -/
def ReturnsAll (le : α → α → Prop) (rows : List α) (name : α → ι) (named : β → ι)
    (answer : (List α → List α) → ℕ → Except ε (List β)) : Prop :=
  ∀ orders : ℕ → List α → List α, (∀ k, Admits le rows (orders k rows)) →
    ∃ (n : ℕ) (pages : ℕ → List β), (∀ k ≤ n, answer (orders k) k = .ok (pages k)) ∧
      (∀ k < n, pages k ≠ []) ∧ pages n = [] ∧
      (((List.range n).flatMap pages).map named).Perm (rows.map name)

/-- The number of pages with rows. -/
def pageCount (rows : List α) (take : ℕ) : ℕ := (rows.length + take - 1) / take

theorem pageCount_le_iff (htake : 1 ≤ take) {k : ℕ} :
    pageCount rows take ≤ k ↔ rows.length ≤ k * take := by
  rw [pageCount, ← Nat.lt_succ_iff, Nat.div_lt_iff_lt_mul (by omega), Nat.succ_mul]
  omega

/-- The answers are the pages, as far as the first empty one. -/
def Answers (rows : List α) (take : ℕ) (g : α → β)
    (answer : (List α → List α) → ℕ → Except ε (List β)) : Prop :=
  ∀ orderBy, (orderBy rows).Perm rows → ∀ k ≤ pageCount rows take,
    answer orderBy k = .ok ((page (orderBy rows) (k * take) take).map g)

variable [DecidableRel le] [Std.Total le] [IsTrans α le]

theorem Answers.returnsAll (h : Answers rows take g answer) (hname : ∀ a, named (g a) = name a)
    (htake : 1 ≤ take) (hone : OnePage le rows take) : ReturnsAll le rows name named answer := by
  intro orders hadm
  have hempty : ∀ k, page (orders k rows) (k * take) take = [] ↔ pageCount rows take ≤ k :=
    fun k => by rw [page_eq_nil htake, (hadm k).1.length_eq, pageCount_le_iff htake]
  refine ⟨pageCount rows take, fun k => (page (orders k rows) (k * take) take).map g,
    fun k hk => h _ (hadm k).1 k hk, fun k hk => ?_, ?_, ?_⟩
  · rw [ne_eq, List.map_eq_nil_iff, hempty]
    omega
  · rw [List.map_eq_nil_iff, hempty]
  · have hperm := (hone.perm htake hadm ((pageCount_le_iff htake).1 le_rfl)).map name
    rw [List.map_flatMap] at hperm ⊢
    simpa only [List.map_map, Function.comp_def, hname] using hperm

theorem Answers.onePage (h : Answers rows take g answer) (hname : ∀ a, named (g a) = name a)
    (htake : 1 ≤ take) (hnd : (rows.map name).Nodup) (hall : ReturnsAll le rows name named answer) :
    OnePage le rows take := by
  by_contra hone
  obtain ⟨orders, hadm, hrepeat⟩ := exists_repeat htake hone
  obtain ⟨n, pages, hpages, hmore, hend, hperm⟩ := hall (fun k _ => orders k) hadm
  have hempty : ∀ k, page (orders k) (k * take) take = [] ↔ pageCount rows take ≤ k :=
    fun k => by rw [page_eq_nil htake, (hadm k).1.length_eq, pageCount_le_iff htake]
  have hpage : ∀ k ≤ n, k ≤ pageCount rows take →
      pages k = (page (orders k) (k * take) take).map g := fun k hk hk' =>
    Except.ok.inj ((hpages k hk).symm.trans (h (fun _ => orders k) (hadm k).1 k hk'))
  obtain rfl : n = pageCount rows take := by
    rcases lt_trichotomy n (pageCount rows take) with hlt | heq | hgt
    · rw [hpage n le_rfl hlt.le, List.map_eq_nil_iff, hempty] at hend
      omega
    · exact heq
    · have hlast := hmore _ hgt
      rw [hpage _ hgt.le le_rfl, ne_eq, List.map_eq_nil_iff, hempty] at hlast
      exact absurd le_rfl hlast
  have hread : ((List.range (pageCount rows take)).flatMap pages).map named =
      ((List.range (pageCount rows take)).flatMap fun k =>
        page (orders k) (k * take) take).map name := by
    rw [List.map_flatMap, List.map_flatMap]
    refine List.flatMap_congr fun k hk => ?_
    have hlt := List.mem_range.1 hk
    rw [hpage k hlt.le hlt.le, List.map_map]
    exact List.map_congr_left fun a _ => hname a
  rw [hread] at hperm
  exact hrepeat _ ((pageCount_le_iff htake).1 le_rfl) (hperm.nodup_iff.2 hnd).of_map

/-- Every row is read once exactly if ties lie on one page. -/
theorem Answers.returnsAll_iff (h : Answers rows take g answer) (hname : ∀ a, named (g a) = name a)
    (htake : 1 ≤ take) (hnd : (rows.map name).Nodup) :
    ReturnsAll le rows name named answer ↔ OnePage le rows take :=
  ⟨h.onePage hname htake hnd, h.returnsAll hname htake⟩

/-- Questions that never come to an empty page return nothing in full. -/
theorem not_returnsAll (hnever : ∀ orderBy, Admits le rows (orderBy rows) → ∀ n,
    (∀ k ≤ n, ∃ p, answer orderBy k = .ok p) → answer orderBy n ≠ .ok []) :
    ¬ReturnsAll le rows name named answer := by
  intro hall
  obtain ⟨n, pages, hpages, -, hend, -⟩ := hall (fun _ _ => rows.insertionSort le) fun _ =>
    admits_insertionSort le rows
  refine hnever (fun _ => rows.insertionSort le) (admits_insertionSort le rows) n
    (fun k hk => ⟨_, hpages k hk⟩) ?_
  rw [hpages n le_rfl, hend]

end answers

end Paging
