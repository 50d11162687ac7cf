import Mathlib.Data.List.Induction
import Mathlib.Data.List.Nodup
import Mathlib.Order.Lattice

/-! @lib Leasing | scheme:fencing | layer:library

    Work handed out under leases. A holder has a token and a time at which its lease runs out; the
    next lease is granted only when there is no holder or its time is up, and always under a new
    token. `Fenced` relates the present holder to the history of grants and releases: the holder's
    lease is outstanding, and whatever lease is outstanding and not run out is the holder's. `spent`
    counts the grants since the budget was last reset. -/

namespace Leasing

/-- A token and the time at which it stops counting. -/
structure Lease (τ ι : Type) where
  token : τ
  expiresAt : ι
  deriving DecidableEq

/-- What happens to the leases of one row. -/
inductive Event (τ ι : Type)
  | reset
  | granted (lease : Lease τ ι)
  | released (token : τ)
  deriving DecidableEq

section
variable {τ ι : Type}

/-- The number of grants after one more event. -/
def Event.count (n : ℕ) : Event τ ι → ℕ
  | .reset => 0
  | .granted _ => n + 1
  | .released _ => n

/-- The grants since the last reset. -/
def spent (history : List (Event τ ι)) : ℕ := history.foldl Event.count 0

@[simp] theorem spent_nil : spent ([] : List (Event τ ι)) = 0 := rfl

@[simp] theorem spent_concat (history : List (Event τ ι)) (e : Event τ ι) :
    spent (history ++ [e]) = e.count (spent history) := by simp [spent]

/-- The token of a grant. -/
def Event.grant : Event τ ι → Option τ
  | .granted l => some l.token
  | _ => none

/-- The tokens ever granted, in order. -/
def tokens (history : List (Event τ ι)) : List τ := history.filterMap Event.grant

@[simp] theorem tokens_nil : tokens ([] : List (Event τ ι)) = [] := rfl

@[simp] theorem tokens_append (h h' : List (Event τ ι)) : tokens (h ++ h') = tokens h ++ tokens h' :=
  List.filterMap_append

@[simp] theorem tokens_reset : tokens [(.reset : Event τ ι)] = [] := rfl
@[simp] theorem tokens_granted (l : Lease τ ι) : tokens [.granted l] = [l.token] := rfl
@[simp] theorem tokens_released (t : τ) : tokens [(.released t : Event τ ι)] = [] := rfl

theorem mem_tokens {h : List (Event τ ι)} {l : Lease τ ι} (hl : .granted l ∈ h) :
    l.token ∈ tokens h := List.mem_filterMap.2 ⟨_, hl, rfl⟩

/-- Without a reset, every grant counts. -/
theorem tokens_length_of_no_reset {history : List (Event τ ι)} (hr : .reset ∉ history) :
    (tokens history).length = spent history := by
  induction history using List.reverseRecOn with
  | nil => simp
  | append_singleton h e ih =>
    simp only [List.mem_append, List.mem_singleton, not_or] at hr
    have := ih hr.1
    cases e <;> simp_all [Event.count]

/-- A lease that was granted and not given back. -/
def Outstanding (history : List (Event τ ι)) (l : Lease τ ι) : Prop :=
  .granted l ∈ history ∧ .released l.token ∉ history

variable [LinearOrder ι] {holder : Option (Lease τ ι)} {history : List (Event τ ι)} {now : ι}

/-- The holder against the history. -/
structure Fenced (holder : Option (Lease τ ι)) (history : List (Event τ ι)) (now : ι) : Prop where
  held : ∀ l ∈ holder, Outstanding history l
  sole : ∀ l, Outstanding history l → now < l.expiresAt → holder = some l
  nodup : (tokens history).Nodup
  known : ∀ t, .released t ∈ history → t ∈ tokens history

theorem fenced_nil : Fenced (none : Option (Lease τ ι)) [] now :=
  ⟨by simp, by simp [Outstanding], by simp, by simp⟩

/-- At most one lease is outstanding and not run out. -/
theorem Fenced.unique (hf : Fenced holder history now) {l l' : Lease τ ι}
    (hl : Outstanding history l) (hn : now < l.expiresAt)
    (hl' : Outstanding history l') (hn' : now < l'.expiresAt) : l = l' :=
  Option.some.inj ((hf.sole l hl hn).symm.trans (hf.sole l' hl' hn'))

/-- Time passes. -/
theorem Fenced.later (hf : Fenced holder history now) {now' : ι} (h : now ≤ now') :
    Fenced holder history now' :=
  { hf with sole := fun l hl hn => hf.sole l hl (lt_of_le_of_lt h hn) }

/-- The budget starts again; leases are not touched. -/
theorem Fenced.reset (hf : Fenced holder history now) :
    Fenced holder (history ++ [.reset]) now := by
  refine ⟨fun l hl => ?_, fun l hl hn => hf.sole l ?_ hn, ?_, fun t ht => ?_⟩
  · simpa [Outstanding] using hf.held l hl
  · simpa [Outstanding] using hl
  · simpa using hf.nodup
  · simpa using hf.known t (by simpa using ht)

/-- A lease whose time is up is dropped. -/
theorem Fenced.lapse (hf : Fenced holder history now) (h : ∀ l ∈ holder, l.expiresAt ≤ now) :
    Fenced none history now := by
  refine { hf with held := by simp, sole := fun l hl hn => ?_ }
  have heq := hf.sole l hl hn
  exact absurd hn (not_lt.2 (h l heq))

/-- A new lease, when there is none whose time is not up. -/
theorem Fenced.grant (hf : Fenced holder history now) (h : ∀ l ∈ holder, l.expiresAt ≤ now)
    {l : Lease τ ι} (hl : l.token ∉ tokens history) :
    Fenced (some l) (history ++ [.granted l]) now := by
  have hnone := hf.lapse h
  refine ⟨fun l' hl' => ?_, fun l' hl' hn => ?_, ?_, fun t ht => ?_⟩
  · obtain rfl : l = l' := by simpa using hl'
    refine ⟨by simp, ?_⟩
    simpa using fun hr => hl (hf.known _ hr)
  · obtain ⟨hg, hr⟩ := hl'
    rcases List.mem_append.1 hg with hg | hg
    · -- an older outstanding lease would still be the holder's
      exact absurd (hnone.sole l' ⟨hg, fun h => hr (List.mem_append_left _ h)⟩ hn) (by simp)
    · obtain rfl : l' = l := by simpa using hg
      rfl
  · rw [tokens_append, tokens_granted, List.nodup_append]
    refine ⟨hf.nodup, List.nodup_singleton _, fun t ht t' ht' heq => ?_⟩
    obtain rfl : t' = l.token := by simpa using ht'
    exact hl (heq ▸ ht)
  · rw [tokens_append]
    exact List.mem_append_left _ (hf.known t (by simpa using ht))

/-- The holder gives its lease back. -/
theorem Fenced.release {l : Lease τ ι} (hf : Fenced (some l) history now) :
    Fenced none (history ++ [.released l.token]) now := by
  refine ⟨by simp, fun l' hl' hn => ?_, by simpa using hf.nodup, fun t ht => ?_⟩
  · obtain ⟨hg, hr⟩ := hl'
    have hg' : .granted l' ∈ history := by simpa using hg
    have hr' : .released l'.token ∉ history := fun h => hr (List.mem_append_left _ h)
    obtain rfl : l = l' := Option.some.inj (hf.sole l' ⟨hg', hr'⟩ hn)
    exact absurd (by simp) hr
  · rw [tokens_append]
    rcases List.mem_append.1 ht with ht | ht
    · exact List.mem_append_left _ (hf.known t ht)
    · obtain rfl : t = l.token := by simpa using ht
      exact List.mem_append_left _ (mem_tokens (hf.held l rfl).1)

end

end Leasing
