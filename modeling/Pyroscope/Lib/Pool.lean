import Mathlib.Data.List.Basic

/-!
# Resources which are pooled or owned

Each resource lies in the pool once or belongs to one owner, who has no other.
-/

namespace Pyroscope.Pool

open Function List Option

universe u v

variable {Resource : Type u} {Owner : Type v}

/-- Every resource is in the pool or has one owner. -/
structure Divided (isResource : Resource → Prop) (pool : List Resource)
    (owned : Owner → Option Resource) : Prop where
  nodup : pool.Nodup
  pooled : ∀ resource ∈ pool, isResource resource
  taken : ∀ owner resource, owned owner = some resource → isResource resource ∧ resource ∉ pool
  unique : ∀ first second resource, owned first = some resource →
    owned second = some resource → first = second
  complete : ∀ resource, isResource resource →
    resource ∈ pool ∨ ∃ owner, owned owner = some resource

namespace Divided

variable [DecidableEq Owner] {isResource : Resource → Prop} {pool rest : List Resource}
  {owned : Owner → Option Resource} {owner other : Owner} {resource : Resource}

theorem take (divided : Divided isResource (resource :: pool) owned) (idle : owned owner = none) :
    Divided isResource pool (update owned owner (some resource)) := by
  have fresh := nodup_cons.mp divided.nodup
  constructor
  · exact fresh.2
  · intro other isPooled
    exact divided.pooled other (mem_cons_of_mem _ isPooled)
  · intro who other owns
    by_cases same : who = owner
    · subst same
      simp only [update_self, some.injEq] at owns
      subst owns
      exact ⟨divided.pooled resource (mem_cons_self ..), fresh.1⟩
    · rw [update_of_ne same] at owns
      have isTaken := divided.taken who other owns
      exact ⟨isTaken.1, fun isPooled => isTaken.2 (mem_cons_of_mem _ isPooled)⟩
  · have untouched (who : Owner) : owned who ≠ some resource := by
      intro owns
      exact (divided.taken who resource owns).2 (mem_cons_self ..)
    intro first second other ownsFirst ownsSecond
    by_cases isFirst : first = owner <;> by_cases isSecond : second = owner
    · rw [isFirst, isSecond]
    · subst isFirst
      simp only [update_self, some.injEq] at ownsFirst
      rw [update_of_ne isSecond, ← ownsFirst] at ownsSecond
      exact absurd ownsSecond (untouched second)
    · subst isSecond
      simp only [update_self, some.injEq] at ownsSecond
      rw [update_of_ne isFirst, ← ownsSecond] at ownsFirst
      exact absurd ownsFirst (untouched first)
    · rw [update_of_ne isFirst] at ownsFirst
      rw [update_of_ne isSecond] at ownsSecond
      exact divided.unique first second other ownsFirst ownsSecond
  · intro other present
    rcases divided.complete other present with isPooled | ⟨who, owns⟩
    · rcases mem_cons.mp isPooled with rfl | inPool
      · exact .inr ⟨owner, update_self ..⟩
      · exact .inl inPool
    · have different : who ≠ owner := by
        rintro rfl
        rw [idle] at owns
        cases owns
      exact .inr ⟨who, by rw [update_of_ne different]; exact owns⟩

theorem give (divided : Divided isResource pool owned) (owns : owned owner = some resource) :
    Divided isResource (resource :: pool) (update owned owner none) := by
  have isTaken := divided.taken owner resource owns
  have others {who : Owner} {other : Resource}
      (stillOwns : update owned owner none who = some other) :
      who ≠ owner ∧ owned who = some other := by
    by_cases same : who = owner
    · subst same
      simp at stillOwns
    · rw [update_of_ne same] at stillOwns
      exact ⟨same, stillOwns⟩
  constructor
  · exact nodup_cons.mpr ⟨isTaken.2, divided.nodup⟩
  · intro other isPooled
    rcases mem_cons.mp isPooled with rfl | inPool
    · exact isTaken.1
    · exact divided.pooled other inPool
  · intro who other stillOwns
    rcases others stillOwns with ⟨different, owns'⟩
    have isTaken' := divided.taken who other owns'
    refine ⟨isTaken'.1, ?_⟩
    intro isPooled
    rcases mem_cons.mp isPooled with rfl | inPool
    · exact different (divided.unique who owner other owns' owns)
    · exact isTaken'.2 inPool
  · intro first second other ownsFirst ownsSecond
    exact divided.unique first second other (others ownsFirst).2 (others ownsSecond).2
  · intro other present
    rcases divided.complete other present with inPool | ⟨who, owns'⟩
    · exact .inl (mem_cons_of_mem _ inPool)
    · by_cases same : who = owner
      · subst same
        rw [owns, some.injEq] at owns'
        subst owns'
        exact .inl (mem_cons_self ..)
      · exact .inr ⟨who, by rw [update_of_ne same]; exact owns'⟩

theorem handOver (divided : Divided isResource pool owned) (owns : owned owner = some resource)
    (idle : owned other = none) :
    Divided isResource pool (update (update owned owner none) other (some resource)) := by
  apply (divided.give owns).take
  by_cases same : other = owner
  · rw [same, update_self]
  · rw [update_of_ne same]
    exact idle

end Divided

end Pyroscope.Pool
