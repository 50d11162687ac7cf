import Mathlib.Tactic.Common

/-! @lib Validation | scheme:accumulating-validation | layer:library

    A record is checked field by field. It is accepted when every field is, and otherwise the paths of
    all fields that failed are reported, in the order of the fields. A check of the whole record
    comes after its fields were accepted. -/

namespace Validation
universe u

/-- An accepted value, or the paths of what is wrong. -/
inductive Checked (κ α : Type u)
  | ok (value : α)
  | error (issues : List κ)

namespace Checked
variable {κ α β : Type u}

/-- A field reports its own path. -/
def field (path : κ) : Option α → Checked κ α
  | some a => .ok a
  | none => .error [path]

/-- Both sides are checked, and both report. -/
def and : Checked κ (α → β) → Checked κ α → Checked κ β
  | .ok f, .ok a => .ok (f a)
  | .ok _, .error issues => .error issues
  | .error issues, .ok _ => .error issues
  | .error issues, .error issues' => .error (issues ++ issues')

instance : Applicative (Checked κ) where
  pure := .ok
  seq f x := f.and (x ())

/-- A check of an accepted value as a whole. -/
def refine (check : α → List κ) : Checked κ α → Checked κ α
  | .ok a => if (check a).isEmpty then .ok a else .error (check a)
  | .error issues => .error issues

/-- What is reported. -/
def issues : Checked κ α → List κ
  | .ok _ => []
  | .error issues => issues

@[simp] theorem field_ok {path : κ} {value : Option α} {a : α} :
    field path value = .ok a ↔ value = some a := by
  cases value <;> simp [field]

@[simp] theorem seq_ok {f : Checked κ (α → β)} {x : Checked κ α} {b : β} :
    f <*> x = .ok b ↔ ∃ g a, f = .ok g ∧ x = .ok a ∧ g a = b := by
  show f.and x = .ok b ↔ _
  cases f <;> cases x <;> simp [and]

@[simp] theorem map_ok {f : α → β} {x : Checked κ α} {b : β} :
    f <$> x = .ok b ↔ ∃ a, x = .ok a ∧ f a = b := by
  show Checked.and (.ok f) x = .ok b ↔ _
  cases x <;> simp [and]

/-- What holds of every accepted record, field by field from the first. -/
theorem seq_forall {f : Checked κ (α → β)} {x : Checked κ α} {p : β → Prop} :
    (∀ b, f <*> x = .ok b → p b) ↔ ∀ g, f = .ok g → ∀ a, x = .ok a → p (g a) := by
  constructor
  · intro h g hg a ha
    exact h (g a) (seq_ok.2 ⟨g, a, hg, ha, rfl⟩)
  · intro h b hb
    obtain ⟨g, a, hg, ha, rfl⟩ := seq_ok.1 hb
    exact h g hg a ha

theorem map_forall {f : α → β} {x : Checked κ α} {p : β → Prop} :
    (∀ b, f <$> x = .ok b → p b) ↔ ∀ a, x = .ok a → p (f a) := by
  constructor
  · intro h a ha
    exact h (f a) (map_ok.2 ⟨a, ha, rfl⟩)
  · intro h b hb
    obtain ⟨a, ha, rfl⟩ := map_ok.1 hb
    exact h a ha

theorem refine_ok {check : α → List κ} {x : Checked κ α} {a : α} :
    x.refine check = .ok a ↔ x = .ok a ∧ check a = [] := by
  cases x with
  | error issues => simp [refine]
  | ok b =>
    by_cases hcheck : check b = []
    · simp only [refine, hcheck, List.isEmpty_nil, if_true, ok.injEq]
      constructor
      · rintro rfl
        exact ⟨rfl, hcheck⟩
      · exact And.left
    · have hissues : ¬(check b).isEmpty = true := fun h => hcheck (List.isEmpty_iff.1 h)
      simp only [refine, hissues, if_false, reduceCtorEq, ok.injEq, false_iff]
      rintro ⟨rfl, hnone⟩
      exact hcheck hnone

/-! ### What is reported -/

/-- Only these paths are reported. -/
def Within (paths : List κ) (x : Checked κ α) : Prop := ∀ path ∈ x.issues, path ∈ paths

section within
variable {paths : List κ}

theorem Within.field {path : κ} (h : path ∈ paths) (value : Option α) :
    (field path value).Within paths := by
  intro path' hpath
  cases value with
  | some a => cases hpath
  | none =>
    obtain rfl : path' = path := List.mem_singleton.1 hpath
    exact h

theorem Within.map {x : Checked κ α} (h : x.Within paths) (f : α → β) : (f <$> x).Within paths := by
  cases x with
  | ok a => exact nofun
  | error issues => exact h

theorem Within.seq {f : Checked κ (α → β)} {x : Checked κ α} (hf : f.Within paths)
    (hx : x.Within paths) : (f <*> x).Within paths := by
  have happend : (f.and x).issues = f.issues ++ x.issues := by
    cases f <;> cases x <;> simp [and, issues]
  intro path hpath
  have hmem : path ∈ (f.and x).issues := hpath
  rw [happend] at hmem
  exact (List.mem_append.1 hmem).elim (hf path) (hx path)

/-- A check of the whole reports its own paths or those of the fields. -/
theorem Within.refine {check : α → List κ} {x : Checked κ α} (hx : x.Within paths)
    (hcheck : ∀ a, ∀ path ∈ check a, path ∈ paths) : (x.refine check).Within paths := by
  cases x with
  | error issues => exact hx
  | ok a =>
    by_cases hnone : (check a).isEmpty = true
    · rw [Checked.refine, if_pos hnone]
      exact hx
    · rw [Checked.refine, if_neg hnone]
      exact hcheck a

end within

end Checked

end Validation
