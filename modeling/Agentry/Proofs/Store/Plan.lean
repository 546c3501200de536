import Agentry.Proofs.Artifact.Rendering
import Agentry.Proofs.Files.Replacing
import Agentry.Proofs.Store.Slot
/-!
# Where a write goes

The slugs that a write tries are the slug of the agent's name and then that slug with the numbers
from two on. It goes to the first place that is free or owned by the agent; a policy can stop it at
the first of them, or let it take that place from its owner. The numbers are those of 32 bits, and
where all their places are taken the count overflows.
-/
namespace Agentry

open Artifact (fileNameOf fileNameOf_inj)

theorem AgentSpec.renderAs_of_render {spec : AgentSpec} {a : Artifact} (h : spec.render = .ok a)
    {slug : String} (hslug : slug ≠ "") : ∃ b, spec.renderAs slug = .ok b := by
  have hempty : slug.isEmpty = false := by simpa using hslug
  unfold render renderAs at h
  unfold renderAs
  split at h
  · cases h
  split at h
  · cases h
  split at h
  · cases h
  exact ⟨_, by rw [hempty]; rfl⟩

namespace Store

/-- The slugs that an agent can have, in the order in which they are tried. -/
def candidate (base : String) : Nat → String
  | 0 => base
  | k + 1 => numberedSlug base (firstNumber + k)

theorem candidate_inj {base : String} {i j : Nat} :
    candidate base i = candidate base j ↔ i = j := by
  refine ⟨fun h => ?_, fun h => congrArg (candidate base) h⟩
  cases i with
  | zero =>
    cases j with
    | zero => rfl
    | succ j => exact absurd h.symm (numberedSlug_ne base _)
  | succ i =>
    cases j with
    | zero => exact absurd h (numberedSlug_ne base _)
    | succ j =>
      have hnumber := numberedSlug_inj.mp h
      omega

theorem valid_candidate {base : String} (h : Slug.Valid base.toList) (k : Nat) :
    Slug.Valid (candidate base k).toList := by
  cases k with
  | zero => exact h
  | succ k => exact valid_numberedSlug h _

/-- A place that a write under a name can go to, and what that will have done. -/
inductive Finds (name : String) : Slot → WriteOutcome → Prop where
  | created : Finds name .free .created
  | updated : Finds name (.owned name) .updated

/-- A place of another agent. -/
def Blocked (name : String) (slot : Slot) : Prop :=
  ∃ other, slot = .owned other ∧ other ≠ name

theorem Finds.of_free {name : String} {slot : Slot} (h : slot = .free) :
    Finds name slot .created := by
  rw [h]
  exact .created

theorem Finds.of_owned {name : String} {slot : Slot} (h : slot = .owned name) :
    Finds name slot .updated := by
  rw [h]
  exact .updated

instance (name : String) (slot : Slot) : Decidable (Blocked name slot) :=
  match slot with
  | .owned other =>
    decidable_of_iff (other ≠ name) ⟨fun hne => ⟨other, rfl, hne⟩, fun ⟨_, hother, hne⟩ =>
      Slot.owned.inj hother ▸ hne⟩
  | .free => .isFalse fun ⟨_, hother, _⟩ => by cases hother
  | .unreadable _ => .isFalse fun ⟨_, hother, _⟩ => by cases hother

theorem Finds.not_blocked {name : String} {slot : Slot} {outcome : WriteOutcome}
    (h : Finds name slot outcome) : ¬Blocked name slot := by
  rintro ⟨other, rfl, hne⟩
  cases h
  exact hne rfl

/-- How many slugs there are to try: the one without a number, and one for each number from two on
that 32 bits can count. -/
def candidateCount : Nat := UInt32.size - 1

/-- Whether a write under a policy may get as far as a slug. -/
def Tries (policy : CollisionPolicy) (k : Nat) : Prop :=
  k = 0 ∨ policy = .suffix ∧ k < candidateCount

instance (policy : CollisionPolicy) (k : Nat) : Decidable (Tries policy k) :=
  inferInstanceAs (Decidable (_ ∨ _))

/-- Where a write under a policy goes, in a directory with some places. -/
inductive Placed (policy : CollisionPolicy) (name : String) (slots : String → Slot) :
    String → WriteOutcome → Prop where
  | found (k : Nat) (outcome : WriteOutcome) :
    Tries policy k →
      (∀ j < k, Blocked name (slots (candidate (slugify name) j))) →
      Finds name (slots (candidate (slugify name) k)) outcome →
      Placed policy name slots (candidate (slugify name) k) outcome
  | overwrote : policy = .overwrite → Blocked name (slots (slugify name)) →
    Placed policy name slots (slugify name) .overwrote

/-- Why a write goes nowhere, in a directory with some places. -/
inductive Refused (policy : CollisionPolicy) (name : String) (slots : String → Slot) :
    AgentError → Prop where
  | taken (other : String) : policy = .reject → slots (slugify name) = .owned other →
    other ≠ name → Refused policy name slots (.slugTaken (slugify name) other name)
  | unreadable (k : Nat) (cause : IoError) :
    Tries policy k →
      (∀ j < k, Blocked name (slots (candidate (slugify name) j))) →
      slots (candidate (slugify name) k) = .unreadable cause →
      Refused policy name slots (.file cause)
  | exhausted : policy = .suffix →
    (∀ j < candidateCount, Blocked name (slots (candidate (slugify name) j))) →
    Refused policy name slots .countOverflow

theorem placed_found {policy : CollisionPolicy} {name slug : String} {slots : String → Slot}
    {outcome : WriteOutcome} (k : Nat) (hpolicy : Tries policy k)
    (hslug : candidate (slugify name) k = slug)
    (hblocked : ∀ j < k, Blocked name (slots (candidate (slugify name) j)))
    (hfinds : Finds name (slots slug) outcome) : Placed policy name slots slug outcome := by
  rw [← hslug] at hfinds ⊢
  exact .found k outcome hpolicy hblocked hfinds

theorem placed_overwrote {name slug : String} {slots : String → Slot} (hslug : slugify name = slug)
    (hblocked : Blocked name (slots slug)) : Placed .overwrite name slots slug .overwrote := by
  rw [← hslug] at hblocked ⊢
  exact .overwrote rfl hblocked

section Search

variable {policy : CollisionPolicy} {name slug : String} {slots : String → Slot}
  {outcome : WriteOutcome}

theorem Placed.finds_or_blocked (h : Placed policy name slots slug outcome) :
    Finds name (slots slug) outcome ∨
      policy = .overwrite ∧ slug = slugify name ∧ outcome = .overwrote ∧
        Blocked name (slots slug) := by
  cases h with
  | found k _ _ _ hfinds => exact Or.inl hfinds
  | overwrote hpolicy hblocked => exact Or.inr ⟨hpolicy, rfl, rfl, hblocked⟩

theorem Placed.exists_candidate (h : Placed policy name slots slug outcome) :
    ∃ k, slug = candidate (slugify name) k ∧ Tries policy k ∧
      ∀ j < k, Blocked name (slots (candidate (slugify name) j)) := by
  cases h with
  | found k _ hk hblocked _ => exact ⟨k, rfl, hk, hblocked⟩
  | overwrote => exact ⟨0, rfl, Or.inl rfl, fun j hj => absurd hj (Nat.not_lt_zero j)⟩

theorem valid_of_placed (hslug : slugify name ≠ "")
    (h : Placed policy name slots slug outcome) : Slug.Valid slug.toList := by
  obtain ⟨k, rfl, -⟩ := h.exists_candidate
  exact valid_candidate (valid_slugify hslug) k

theorem Placed.owned_of_updated (h : Placed policy name slots slug .updated) :
    slots slug = .owned name := by
  rcases h.finds_or_blocked with hfinds | ⟨-, -, houtcome, -⟩
  · generalize slots slug = slot at hfinds ⊢
    cases hfinds
    rfl
  · cases houtcome

theorem Placed.overwrote_cases (h : Placed policy name slots slug outcome)
    (houtcome : outcome = .overwrote) :
    policy = .overwrite ∧ slug = slugify name ∧ Blocked name (slots slug) := by
  rcases h.finds_or_blocked with hfinds | ⟨hpolicy, hslug, -, hblocked⟩
  · subst houtcome
    generalize slots slug = slot at hfinds
    cases hfinds
  · exact ⟨hpolicy, hslug, hblocked⟩

theorem Placed.ne_unchanged (h : Placed policy name slots slug outcome) :
    outcome ≠ .unchanged := by
  rintro rfl
  rcases h.finds_or_blocked with hfinds | ⟨-, -, houtcome, -⟩
  · generalize slots slug = slot at hfinds
    cases hfinds
  · cases houtcome

theorem index_le {i j : Nat} (hi : ¬Blocked name (slots (candidate (slugify name) i)))
    (hj : ∀ m < j, Blocked name (slots (candidate (slugify name) m))) : j ≤ i :=
  Nat.not_lt.mp fun hlt => hi (hj i hlt)

theorem Placed.unique {slug' : String} {outcome' : WriteOutcome}
    (h : Placed policy name slots slug outcome) (h' : Placed policy name slots slug' outcome') :
    slug = slug' ∧ outcome = outcome' := by
  cases h with
  | found i _ hi hblocked hfinds =>
    cases h' with
    | found j _ hj hblocked' hfinds' =>
      obtain rfl : i = j :=
        Nat.le_antisymm (index_le hfinds'.not_blocked hblocked)
          (index_le hfinds.not_blocked hblocked')
      refine ⟨rfl, ?_⟩
      generalize slots (candidate (slugify name) i) = slot at hfinds hfinds'
      cases hfinds <;> cases hfinds' <;> rfl
    | overwrote hpolicy hblocked' =>
      rcases hi with rfl | ⟨hi, -⟩
      · exact absurd hblocked' hfinds.not_blocked
      · rw [hpolicy] at hi
        cases hi
  | overwrote hpolicy hblocked =>
    cases h' with
    | found j _ hj _ hfinds' =>
      rcases hj with rfl | ⟨hj, -⟩
      · exact absurd hblocked hfinds'.not_blocked
      · rw [hpolicy] at hj
        cases hj
    | overwrote => exact ⟨rfl, rfl⟩

theorem Placed.not_refused {cause : AgentError} (h : Placed policy name slots slug outcome) :
    ¬Refused policy name slots cause := by
  intro hrefused
  cases hrefused with
  | taken other hpolicy hslot hne =>
    cases h with
    | found k _ hk _ hfinds =>
      rcases hk with rfl | ⟨hk, -⟩
      · exact hfinds.not_blocked ⟨other, hslot, hne⟩
      · rw [hpolicy] at hk
        cases hk
    | overwrote hoverwrite _ =>
      rw [hpolicy] at hoverwrite
      cases hoverwrite
  | unreadable i cause hi hblocked hslot =>
    have hnot : ¬Blocked name (slots (candidate (slugify name) i)) := by
      rintro ⟨other, hother, -⟩
      rw [hslot] at hother
      cases hother
    cases h with
    | found k _ hk hblocked' hfinds =>
      obtain rfl : i = k :=
        Nat.le_antisymm (index_le hfinds.not_blocked hblocked) (index_le hnot hblocked')
      rw [hslot] at hfinds
      cases hfinds
    | overwrote hpolicy hblocked' =>
      rcases hi with rfl | ⟨hi, -⟩
      · exact hnot hblocked'
      · rw [hpolicy] at hi
        cases hi
  | exhausted hsuffix hall =>
    cases h with
    | found k _ hk _ hfinds =>
      refine hfinds.not_blocked (hall k ?_)
      rcases hk with rfl | ⟨-, hk⟩
      · decide
      · exact hk
    | overwrote hoverwrite _ =>
      rw [hsuffix] at hoverwrite
      cases hoverwrite

theorem Placed.congr {slots' : String → Slot} (h : Placed policy name slots slug outcome)
    (hslots : ∀ k, slots' (candidate (slugify name) k) = slots (candidate (slugify name) k)) :
    Placed policy name slots' slug outcome := by
  cases h with
  | found k _ hk hblocked hfinds =>
    exact .found k outcome hk (fun j hj => by rw [hslots]; exact hblocked j hj)
      (by rw [hslots]; exact hfinds)
  | overwrote hpolicy hblocked =>
    refine .overwrote hpolicy ?_
    rw [show slots' (slugify name) = slots (slugify name) from hslots 0]
    exact hblocked

theorem Refused.congr {slots' : String → Slot} {cause : AgentError}
    (h : Refused policy name slots cause)
    (hslots : ∀ k, slots' (candidate (slugify name) k) = slots (candidate (slugify name) k)) :
    Refused policy name slots' cause := by
  cases h with
  | taken other hpolicy hslot hne => exact .taken other hpolicy ((hslots 0).trans hslot) hne
  | unreadable k cause hk hblocked hslot =>
    exact .unreadable k cause hk (fun j hj => by rw [hslots]; exact hblocked j hj)
      ((hslots k).trans hslot)
  | exhausted hsuffix hall =>
    exact .exhausted hsuffix fun j hj => by rw [hslots]; exact hall j hj

end Search

/-! ## The search -/

variable {store : Store} {spec : AgentSpec} {bench : Workbench} {slots : String → Slot}
  {root : Location}

/-- What a search for a place comes to: a plan, or a reason to go nowhere. -/
def Settles (store : Store) (spec : AgentSpec) (slots : String → Slot) (bench : Workbench)
    (answer : Except AgentError Plan × Workbench) : Prop :=
  bench.disk.Kept answer.2.disk ∧
    ((∃ slug a outcome, answer.1 = .ok (a, outcome) ∧ spec.renderAs slug = .ok a ∧
        Placed store.policy spec.name slots slug outcome) ∨
      ∃ cause, answer.1 = .error cause ∧
        (Refused store.policy spec.name slots cause ∨
          ∃ fault, some fault ∈ bench.disk.faults ∧ cause = .file fault))

theorem Settles.of_kept {after : Workbench} {answer : Except AgentError Plan × Workbench}
    (hkept : bench.disk.Kept after.disk) (h : Settles store spec slots after answer) :
    Settles store spec slots bench answer := by
  obtain ⟨hkept', hanswer⟩ := h
  refine ⟨hkept.trans hkept', ?_⟩
  rcases hanswer with hplan | ⟨cause, hcause, hreason⟩
  · exact Or.inl hplan
  · refine Or.inr ⟨cause, hcause, ?_⟩
    rcases hreason with hrefused | ⟨fault, hfault, heq⟩
    · exact Or.inl hrefused
    · exact Or.inr ⟨fault, hkept.faults hfault, heq⟩

theorem Settles.congr {slots' : String → Slot} {answer : Except AgentError Plan × Workbench}
    (h : Settles store spec slots bench answer)
    (hslots : ∀ k, slots' (candidate (slugify spec.name) k) =
      slots (candidate (slugify spec.name) k)) :
    Settles store spec slots' bench answer := by
  obtain ⟨hkept, ⟨slug, a, outcome, hanswer, ha, hplaced⟩ | ⟨cause, hcause, hreason⟩⟩ := h
  · exact ⟨hkept, Or.inl ⟨slug, a, outcome, hanswer, ha, hplaced.congr hslots⟩⟩
  · exact ⟨hkept, Or.inr ⟨cause, hcause, hreason.imp_left (·.congr hslots)⟩⟩

theorem settles_planned {after : Workbench} {slug : String} {outcome : WriteOutcome} {a : Artifact}
    (hrender : spec.render = .ok a) (hvalid : Slug.Valid slug.toList)
    (hkept : bench.disk.Kept after.disk)
    (hplaced : Placed store.policy spec.name slots slug outcome) :
    Settles store spec slots bench (planned spec slug outcome, after) := by
  have hne : slug ≠ "" := by
    rintro rfl
    exact hvalid.ne_nil rfl
  obtain ⟨b, hb⟩ := AgentSpec.renderAs_of_render hrender hne
  refine ⟨hkept, Or.inl ⟨slug, b, outcome, ?_, hb, hplaced⟩⟩
  rw [planned, hb]
  rfl

/-- The files of the first slugs. Different slugs have different ones. -/
def candidateFiles (base : String) (k : Nat) : List String :=
  (List.range k).map fun j => fileNameOf (candidate base j)

theorem nodup_candidateFiles (base : String) (k : Nat) : (candidateFiles base k).Nodup := by
  refine List.Nodup.map (fun i j hij => ?_) List.nodup_range
  exact candidate_inj.mp (fileNameOf_inj.mp hij)

theorem length_candidateFiles (base : String) (k : Nat) : (candidateFiles base k).length = k := by
  rw [candidateFiles, List.length_map, List.length_range]

theorem counted_settles {artifact : Artifact} (hrender : spec.render = .ok artifact)
    (hbase : Slug.Valid (slugify spec.name).toList) (hpolicy : store.policy = .suffix)
    (n : UInt32) (k : Nat) (hn : n.toNat = firstNumber + k) (hhonest : bench.disk.Honest)
    (hblocked : ∀ j < k + 1, Blocked spec.name
      (slotOn store.directory bench.disk (candidate (slugify spec.name) j))) :
    Settles store spec (slotOn store.directory bench.disk) bench
      (orOverflow (store.counted spec (slugify spec.name) n bench)) := by
  -- The induction is on how many numbers are left to try.
  induction hleft : UInt32.size - n.toNat generalizing n k bench with
  | zero => exact absurd n.toNat_lt_size (by omega)
  | succ left ih =>
    have hvalid := valid_candidate hbase (k + 1)
    have htries : Tries store.policy (k + 1) := by
      have hlt := n.toNat_lt_size
      refine Or.inr ⟨hpolicy, ?_⟩
      simp only [candidateCount, firstNumber] at *
      omega
    obtain ⟨answer, after, howner⟩ : ∃ answer after,
        store.owner (numberedSlug (slugify spec.name) (firstNumber + k)) bench = (answer, after) :=
      ⟨_, _, rfl⟩
    obtain ⟨hanswers, hkept⟩ :=
      owner_answers store (numberedSlug (slugify spec.name) (firstNumber + k)) hhonest
    simp only [howner] at hanswers hkept
    generalize hslot : slotOn store.directory bench.disk
      (numberedSlug (slugify spec.name) (firstNumber + k)) = slot at hanswers
    rw [counted, hn, howner]
    cases hanswers with
    | free =>
      refine settles_planned hrender hvalid hkept (.found (k + 1) _ htries hblocked ?_)
      rw [candidate, hslot]
      exact .created
    | owned name =>
      by_cases hname : name = spec.name
      · simp only [hname, if_true]
        refine settles_planned hrender hvalid hkept (.found (k + 1) _ htries hblocked ?_)
        rw [candidate, hslot, hname]
        exact .updated
      · simp only [hname, if_false]
        have hpassed : ∀ j < k + 2, Blocked spec.name
            (slotOn store.directory bench.disk (candidate (slugify spec.name) j)) := by
          intro j hj
          rcases Nat.lt_succ_iff_lt_or_eq.mp hj with hj | rfl
          · exact hblocked j hj
          · rw [candidate, hslot]
            exact ⟨name, rfl, hname⟩
        split
        · rename_i hnext
          rw [← hn] at hnext
          have hslots := slotOn_kept store.directory hkept
          rw [← hslots] at hpassed ⊢
          refine Settles.of_kept hkept
            (ih (n + 1) (k + 1) ?_ (hkept.honest hhonest) hpassed ?_)
          · rw [toNat_next hnext, hn]
            rfl
          · rw [toNat_next hnext]
            omega
        · refine ⟨hkept, Or.inr ⟨_, rfl, Or.inl (.exhausted hpolicy fun j hj => ?_)⟩⟩
          refine hpassed j ?_
          simp only [candidateCount, firstNumber] at *
          omega
    | unreadable cause =>
      exact ⟨hkept, Or.inr ⟨_, rfl, Or.inl (.unreadable (k + 1) cause htries hblocked hslot)⟩⟩
    | fault cause hfault => exact ⟨hkept, Or.inr ⟨_, rfl, Or.inr ⟨cause, hfault, rfl⟩⟩⟩

/-- Nothing is assumed of the disk but that no fault reports that a file is missing. -/
theorem plan_settles (store : Store) (bench : Workbench) {artifact : Artifact}
    (hrender : spec.render = .ok artifact) (hhonest : bench.disk.Honest) :
    Settles store spec (slotOn store.directory bench.disk) bench
      (store.plan spec artifact bench) := by
  obtain ⟨hslug, -⟩ := Artifact.renderAs_ok hrender
  have hartifact := (Artifact.names_of_renderAs hrender).1
  have hbase := valid_slugify hslug
  obtain ⟨answer, after, howner⟩ : ∃ answer after,
      store.owner (slugify spec.name) bench = (answer, after) := ⟨_, _, rfl⟩
  obtain ⟨hanswers, hkept⟩ := owner_answers store (slugify spec.name) hhonest
  have hfirst : ∀ outcome, Finds spec.name
      (slotOn store.directory bench.disk (slugify spec.name)) outcome →
      Settles store spec (slotOn store.directory bench.disk) bench
        (.ok (artifact, outcome), after) := by
    intro outcome hfinds
    rw [howner] at hkept
    exact ⟨hkept, Or.inl ⟨_, artifact, outcome, rfl, hrender, .found 0 outcome (Or.inl rfl)
      (fun j hj => absurd hj (Nat.not_lt_zero j)) hfinds⟩⟩
  rw [howner] at hanswers hkept
  generalize hslot : slotOn store.directory bench.disk (slugify spec.name) = slot
    at hanswers hfirst
  rw [plan, hartifact, howner]
  cases hanswers with
  | free => exact hfirst _ .created
  | owned name =>
    by_cases hname : name = spec.name
    · simp only [hname, if_true]
      exact hfirst _ (hname ▸ .updated)
    · simp only [hname, if_false]
      have hblocked : Blocked spec.name
          (slotOn store.directory bench.disk (slugify spec.name)) :=
        ⟨name, hslot, hname⟩
      rw [settle, hartifact]
      cases hpolicy : store.policy with
      | reject =>
        exact ⟨hkept, Or.inr ⟨_, rfl, Or.inl (.taken name hpolicy hslot hname)⟩⟩
      | overwrite =>
        exact ⟨hkept, Or.inl ⟨_, artifact, _, rfl, hrender, .overwrote hpolicy hblocked⟩⟩
      | suffix =>
        have hslots := slotOn_kept store.directory hkept
        rw [← hslots]
        refine Settles.of_kept hkept (counted_settles hrender hbase hpolicy _ 0 rfl
          (hkept.honest hhonest) fun j hj => ?_)
        obtain rfl : j = 0 := by omega
        rw [hslots]
        exact hblocked
  | unreadable cause =>
    exact ⟨hkept, Or.inr ⟨_, rfl, Or.inl (.unreadable 0 cause (Or.inl rfl)
      (fun j hj => absurd hj (Nat.not_lt_zero j)) hslot)⟩⟩
  | fault cause hfault => exact ⟨hkept, Or.inr ⟨_, rfl, Or.inr ⟨cause, hfault, rfl⟩⟩⟩

end Store
end Agentry
