import KineIRCd.Lib.Runs
import KineIRCd.Registry
/-!
# Who is registered

The entities of every kind that were added and not removed since, beside the
registry that is to know them. A removal looks at the name only, so it takes out
another entity of that name as readily as the one it was asked for.
-/
namespace KineIRCd.Registrations

open Registry (Kind)

/-- The registry, and the entities whose adding succeeded and whose removal has
not since. -/
structure Ledger where
  registry : Registry := {}
  standing : Kind → Finset Nat := fun _ => ∅

/-- A call on the registry, for an entity of a kind. -/
inductive Op where
  | add (kind : Kind) (entity : Nat)
  | remove (kind : Kind) (entity : Nat)

namespace Ledger

variable (limits : Limits) (rounds : Nat) (name : Kind → Nat → WString)

/-- What a call returns and leaves, or `none` when it does not return. -/
def call (l : Ledger) : Op → Option (Error × Ledger)
  | .add kind i =>
    (l.registry.add limits rounds kind ⟨i, name kind i⟩).map fun result =>
      (result.1,
        { registry := result.2
          standing :=
            if result.1 = .noError then Function.update l.standing kind (insert i (l.standing kind)) else l.standing })
  | .remove kind i =>
    let result := l.registry.remove kind ⟨i, name kind i⟩
    some (result.1,
      { registry := result.2
        standing :=
          if result.1 = .noError then Function.update l.standing kind ((l.standing kind).erase i) else l.standing })

/-- After a call that does not return there are no others. -/
def step (l : Option Ledger) (op : Op) : Option Ledger := l.bind fun l => (l.call limits rounds name op).map Prod.snd

/-- Each key of a list is the folded name of the one standing entity it leads to. -/
def Identifies (l : Ledger) : Prop :=
  ∀ kind, Index.Exact (fun i => IRCtoLower (name kind i)) (l.standing kind) (l.registry.list kind)

/-- Removing an entity that is not standing is an error, and leaves the registry alone. -/
def Refuses (l : Ledger) (op : Op) : Prop :=
  ∀ kind i, op = .remove kind i → i ∉ l.standing kind →
    l.registry.remove kind ⟨i, name kind i⟩ = (.unregisteredEntity, l.registry)

/-- A removal finds no other entity under the name. -/
def RemovesOwn (l : Ledger) (op : Op) : Prop :=
  ∀ kind i j, op = .remove kind i → findEntity (l.registry.list kind) (name kind i) = some j → j = i

variable {limits rounds name} {l l' : Ledger} {op : Op} {e : Error} {kind : Kind} {i : Nat}

theorem identifies_empty : Identifies name {} := by
  intro kind
  cases kind <;> exact Index.exact_empty

/-- What holds of the list of one kind, and of the others as they were, holds of all. -/
theorem Identifies.update (kind : Kind) (h : l.Identifies name)
    (hlist : l'.registry.list = Function.update l.registry.list kind (l'.registry.list kind))
    (hstanding : l'.standing = Function.update l.standing kind (l'.standing kind))
    (hkind : Index.Exact (fun i => IRCtoLower (name kind i)) (l'.standing kind) (l'.registry.list kind)) :
    l'.Identifies name := by
  intro k
  by_cases hk : k = kind
  · rw [hk]
    exact hkind
  · rw [hlist, hstanding, Function.update_of_ne hk, Function.update_of_ne hk]
    exact h k

theorem Identifies.find (h : l.Identifies name) (hi : i ∈ l.standing kind) :
    findEntity (l.registry.list kind) (name kind i) = some i := (h kind).lookup hi

theorem identifies_add (h : l.Identifies name) (hcall : l.call limits rounds name (.add kind i) = some (e, l')) :
    l'.Identifies name := by
  rw [call, Option.map_eq_some_iff] at hcall
  obtain ⟨⟨error, registry⟩, hadd, hl'⟩ := hcall
  rw [Prod.mk.injEq] at hl'
  obtain ⟨rfl, rfl⟩ := hl'
  rcases Registry.add_cases hadd with ⟨he, hfree, hlist⟩ | ⟨he, rfl⟩
  · apply Identifies.update kind h
    · simp [hlist]
    · simp [he]
    · simpa [he, hlist] using (h kind).insert hfree
  · simpa [he] using h

/-- A removal answers rightly, and leaves every entry right, exactly when it
finds no other entity under the name. -/
theorem remove_iff (h : l.Identifies name) (hcall : l.call limits rounds name (.remove kind i) = some (e, l')) :
    l.Refuses name (.remove kind i) ∧ l'.Identifies name ↔ l.RemovesOwn name (.remove kind i) := by
  obtain ⟨⟨error, registry⟩, hrem⟩ : ∃ result, l.registry.remove kind ⟨i, name kind i⟩ = result := ⟨_, rfl⟩
  rw [call, hrem, Option.some_inj, Prod.mk.injEq] at hcall
  obtain ⟨rfl, rfl⟩ := hcall
  constructor
  · rintro ⟨hrefuses, -⟩ _ _ j ⟨rfl, rfl⟩ hj
    by_contra hne
    have hi : i ∉ l.standing kind := by
      intro hi
      rw [h.find hi, Option.some_inj] at hj
      exact hne hj.symm
    rcases Registry.remove_cases (hrefuses kind i rfl hi) with ⟨he, -⟩ | ⟨-, hnone, -⟩
    · simp at he
    · rw [hj] at hnone
      simp at hnone
  · intro hown
    rcases Registry.remove_cases hrem with ⟨he, ⟨j, hj⟩, hlist⟩ | ⟨he, hnone, rfl⟩
    · obtain rfl := hown kind i j rfl hj
      have hi : j ∈ l.standing kind := (h kind).mem hj
      constructor
      · rintro _ _ ⟨rfl, rfl⟩ hno
        exact absurd hi hno
      · apply Identifies.update kind h
        · simp [hlist]
        · simp [he]
        · simpa [he, hlist] using (h kind).erase hi
    · constructor
      · rintro _ _ ⟨rfl, rfl⟩ -
        rw [hrem, he]
      · simpa [he] using h

/-- An addition asks nothing, and keeps every entry right. -/
theorem add_iff (h : l.Identifies name) (hcall : l.call limits rounds name (.add kind i) = some (e, l')) :
    l.Refuses name (.add kind i) ∧ l'.Identifies name ↔ l.RemovesOwn name (.add kind i) := by
  apply iff_of_true
  · refine ⟨?_, identifies_add h hcall⟩
    intro _ _ hop
    cases hop
  · intro _ _ _ hop
    cases hop

/-- One call, from where every entry is right. -/
theorem step_iff (s : Option Ledger) (op : Op) (h : ∀ l ∈ s, l.Identifies name) :
    (∀ l ∈ s, l.Refuses name op) ∧ (∀ l ∈ step limits rounds name s op, l.Identifies name) ↔
      ∀ l ∈ s, l.RemovesOwn name op := by
  cases s with
  | none => simp [step]
  | some l =>
    have hl : l.Identifies name := h l rfl
    cases hcall : l.call limits rounds name op with
    | none =>
      -- only an addition may not return
      cases op with
      | add kind i => simp [step, hcall, Refuses, RemovesOwn]
      | remove kind i => simp [call] at hcall
    | some result =>
      obtain ⟨e, l'⟩ := result
      have hiff : l.Refuses name op ∧ l'.Identifies name ↔ l.RemovesOwn name op := by
        cases op with
        | add kind i => exact add_iff hl hcall
        | remove kind i => exact remove_iff hl hcall
      simpa [step, hcall] using hiff

/-- In a run of calls every entry is right, and every removal of an entity that
is not registered is refused, exactly when no removal finds another entity. -/
theorem identifies_iff (limits : Limits) (rounds : Nat) (name : Kind → Nat → WString) (ops : List Op) :
    Runs.Throughout (step limits rounds name) (fun s => ∀ l ∈ s, l.Identifies name) (some {}) ops ∧
      Runs.Along (step limits rounds name) (fun s op => ∀ l ∈ s, l.Refuses name op) (some {}) ops ↔
    Runs.Along (step limits rounds name) (fun s op => ∀ l ∈ s, l.RemovesOwn name op) (some {}) ops := by
  apply Runs.throughout_along_iff (J := fun _ => True)
  · intro _ _ _
    trivial
  · intro s op _ h
    exact step_iff s op h
  · trivial
  · rintro l ⟨⟩
    exact identifies_empty

/-- Every user is called `pickle`. -/
def namesakes (_ : Kind) (_ : Nat) : WString := wide "pickle"

def sampleLimits : Limits := ⟨9, 50, true, wide "&#!+.~"⟩

/-- A user is registered, and another of the same name quits: nobody is registered then. -/
theorem not_identifies_namesakes :
    ¬ (Runs.Throughout (step sampleLimits 8 namesakes) (fun s => ∀ l ∈ s, l.Identifies namesakes) (some {})
        [.add .user 0, .remove .user 1] ∧
      Runs.Along (step sampleLimits 8 namesakes) (fun s op => ∀ l ∈ s, l.Refuses namesakes op) (some {})
        [.add .user 0, .remove .user 1]) := by
  rintro ⟨-, -, hrefuses, -⟩
  have hadded : ∃ l, step sampleLimits 8 namesakes (some {}) (.add .user 0) = some l ∧ 1 ∉ l.standing .user ∧
      (l.registry.remove .user ⟨1, wide "pickle"⟩).1 = .noError := ⟨_, rfl, by decide, by decide⟩
  obtain ⟨l, hl, hno, herr⟩ := hadded
  have h := hrefuses l hl .user 1 rfl hno
  rw [namesakes] at h
  rw [h] at herr
  simp at herr

end Ledger

end KineIRCd.Registrations
