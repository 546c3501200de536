import Agentry.Proofs.Store.Owners
/-!
# No agent is lost

Under every policy but overwriting, a place that has an owner keeps it. So an agent that was written
once lives at one slug from then on: it owns the place there, and the places that a write would try
before it belong to others. Its next write goes there again.
-/
namespace Agentry.Store

/-- Where an agent lives: it owns the place, and others own those that are tried before. -/
def Lives (name : String) (slots : String → Slot) (slug : String) : Prop :=
  ∃ k, slug = candidate (slugify name) k ∧ slots slug = .owned name ∧
    ∀ j < k, Blocked name (slots (candidate (slugify name) j))

/-- No place loses its owner. -/
def Steady (slots slots' : String → Slot) : Prop :=
  ∀ slug name, slots slug = .owned name → slots' slug = .owned name

section Slots

variable {name slug slug' : String} {slots slots' : String → Slot}

theorem Lives.owned (h : Lives name slots slug) : slots slug = .owned name := by
  obtain ⟨-, -, howned, -⟩ := h
  exact howned

theorem Lives.unique (h : Lives name slots slug) (h' : Lives name slots slug') : slug = slug' := by
  obtain ⟨i, rfl, howned, hblocked⟩ := h
  obtain ⟨j, rfl, howned', hblocked'⟩ := h'
  have hnot : ∀ {k}, slots (candidate (slugify name) k) = .owned name →
      ¬Blocked name (slots (candidate (slugify name) k)) := by
    rintro k hk ⟨other, hother, hne⟩
    rw [hk] at hother
    cases hother
    exact hne rfl
  rw [Nat.le_antisymm (index_le (hnot howned') hblocked) (index_le (hnot howned) hblocked')]

theorem Blocked.steady (hsteady : Steady slots slots') (h : Blocked name (slots slug)) :
    Blocked name (slots' slug) := by
  obtain ⟨other, hother, hne⟩ := h
  exact ⟨other, hsteady slug other hother, hne⟩

theorem Lives.steady (hsteady : Steady slots slots') (h : Lives name slots slug) :
    Lives name slots' slug := by
  obtain ⟨k, rfl, howned, hblocked⟩ := h
  exact ⟨k, rfl, hsteady _ _ howned, fun j hj => (hblocked j hj).steady hsteady⟩

end Slots

section Step

variable {store : Store} {spec : AgentSpec} {root : Location} {tree after : FileTree}
  {written : Written}

theorem Stores.finds (hpolicy : store.policy ≠ .overwrite)
    (h : Stores store spec root tree written after) :
    ∃ outcome, Finds spec.name (slotAt store.directory tree root written.slug) outcome := by
  obtain ⟨outcome, hplaced, -⟩ := h.placed
  rcases hplaced.finds_or_blocked with hfinds | ⟨hoverwrite, -⟩
  · exact ⟨outcome, hfinds⟩
  · exact absurd hoverwrite hpolicy

theorem Stores.steady (hlinkless : tree.Linkless root) (hpolicy : store.policy ≠ .overwrite)
    (h : Stores store spec root tree written after) :
    Steady (slotAt store.directory tree root) (slotAt store.directory after root) := by
  intro slug name howned
  rw [h.slotAt_eq hlinkless]
  split
  · rename_i hslug
    obtain ⟨outcome, hfinds⟩ := h.finds hpolicy
    rw [← hslug, howned] at hfinds
    cases hfinds
    rfl
  · exact howned

theorem Stores.lives (hlinkless : tree.Linkless root) (hpolicy : store.policy ≠ .overwrite)
    (h : Stores store spec root tree written after) :
    Lives spec.name (slotAt store.directory after root) written.slug := by
  obtain ⟨outcome, hplaced, -⟩ := h.placed
  obtain ⟨k, hslug, -, hblocked⟩ := hplaced.exists_candidate
  refine ⟨k, hslug, ?_, fun j hj => (hblocked j hj).steady (h.steady hlinkless hpolicy)⟩
  rw [h.slotAt_eq hlinkless, if_pos rfl]

end Step

/-! ## The run -/

/-- The latest spec that was written under a name. -/
def WriteLog.latest? (log : WriteLog) (name : String) : Option AgentSpec :=
  (log.reverse.find? fun entry => entry.1.name = name).map (·.1)

theorem WriteLog.latest?_concat (log : WriteLog) (spec : AgentSpec) (written : Written)
    (name : String) : WriteLog.latest? (log ++ [(spec, written)]) name =
      if spec.name = name then some spec else log.latest? name := by
  simp only [latest?, List.reverse_append, List.reverse_cons, List.reverse_nil, List.nil_append,
    List.singleton_append, List.find?_cons]
  split <;> rename_i h <;> simp at h <;> simp [h]

theorem WriteLog.mem_concat {log : WriteLog} {spec spec' : AgentSpec} {written written' : Written} :
    (spec', written') ∈ log ++ [(spec, written)] ↔
      (spec', written') ∈ log ∨ spec' = spec ∧ written' = written := by
  simp

/-- What a directory keeps of the specs that were written to it. -/
structure Keeps (directory : String) (root : Location) (log : WriteLog) (tree : FileTree) :
    Prop where
  lives : ∀ spec written, (spec, written) ∈ log →
    Lives spec.name (slotAt directory tree root) written.slug
  valid : ∀ spec written, (spec, written) ∈ log → Slug.Valid written.slug.toList
  latest : ∀ spec written, (spec, written) ∈ log → ∃ last a, log.latest? spec.name = some last ∧
    last.WellFormed ∧ last.renderAs written.slug = .ok a ∧
      slotText directory tree root written.slug = .ok a.source

variable {directory : String} {root : Location} {tree after : FileTree} {log : WriteLog}

theorem Keeps.slug_eq_iff (h : Keeps directory root log tree) {spec spec' : AgentSpec}
    {written written' : Written} (hmem : (spec, written) ∈ log) (hmem' : (spec', written') ∈ log) :
    written.slug = written'.slug ↔ spec.name = spec'.name := by
  have hlives := h.lives spec written hmem
  have hlives' := h.lives spec' written' hmem'
  constructor
  · intro hslug
    have howned := hlives.owned
    rw [hslug, hlives'.owned] at howned
    exact (Slot.owned.inj howned).symm
  · intro hname
    rw [hname] at hlives
    exact hlives.unique hlives'

theorem Keeps.step {store : Store} {spec : AgentSpec} {written : Written}
    (hlinkless : tree.Linkless root) (hpolicy : store.policy ≠ .overwrite) (hspec : spec.WellFormed)
    (hstores : Stores store spec root tree written after)
    (h : Keeps store.directory root log tree) :
    Keeps store.directory root (log ++ [(spec, written)]) after := by
  have hsteady := hstores.steady hlinkless hpolicy
  have hnew := hstores.lives hlinkless hpolicy
  have hlives : ∀ spec' written', (spec', written') ∈ log ++ [(spec, written)] →
      Lives spec'.name (slotAt store.directory after root) written'.slug := by
    intro spec' written' hmem
    rcases WriteLog.mem_concat.mp hmem with hmem | ⟨rfl, rfl⟩
    · exact (h.lives spec' written' hmem).steady hsteady
    · exact hnew
  refine ⟨hlives, fun spec' written' hmem => ?_, fun spec' written' hmem => ?_⟩
  · rcases WriteLog.mem_concat.mp hmem with hmem | ⟨-, rfl⟩
    · exact h.valid spec' written' hmem
    · exact hstores.valid
  obtain ⟨a, ha, htext⟩ := hstores.slotText_eq hlinkless
  rw [WriteLog.latest?_concat, htext]
  have hlives' := hlives spec' written' hmem
  by_cases hname : spec.name = spec'.name
  · -- This is the agent that was written, and it lives where the text went.
    rw [hname] at hnew
    obtain hslug := hlives'.unique hnew
    rw [if_pos hname, if_pos hslug, hslug]
    exact ⟨spec, a, rfl, hspec, ha, rfl⟩
  · have hslug : written'.slug ≠ written.slug := by
      intro hslug
      have howned := hlives'.owned
      rw [hslug, hnew.owned] at howned
      exact hname (Slot.owned.inj howned)
    rw [if_neg hname, if_neg hslug]
    rcases WriteLog.mem_concat.mp hmem with hmem | ⟨rfl, -⟩
    · exact h.latest spec' written' hmem
    · exact absurd rfl hname

theorem keeps_nil : Keeps directory root [] tree :=
  ⟨fun _ _ hmem => absurd hmem List.not_mem_nil, fun _ _ hmem => absurd hmem List.not_mem_nil,
    fun _ _ hmem => absurd hmem List.not_mem_nil⟩

/-- Under the policies that never overwrite, each agent has one slug, no two agents have the same,
and its file reads as the latest spec that was written under its name. -/
theorem no_agent_lost {directory : String} {root : Location} {bench : Workbench}
    {requests : List WriteRequest} (hfresh : Fresh directory root bench.disk)
    (hpolicy : ∀ request ∈ requests, request.policy ≠ .overwrite)
    (hspec : ∀ request ∈ requests, request.spec.WellFormed) :
    let run := writeAll directory requests bench
    (∀ x ∈ run.1, ∀ y ∈ run.1, x.2.slug = y.2.slug ↔ x.1.name = y.1.name) ∧
      ∀ x ∈ run.1, ∃ spec, run.1.latest? x.1.name = some spec ∧
        ∀ policy, ((Store.mk directory policy).read x.2.slug
          ⟨run.2.disk.mended, []⟩).1 = .ok ⟨spec, [], .matching⟩ := by
  obtain ⟨hready, hkeeps⟩ := writeAll_keeps (P := Keeps directory root)
    (fun request hrequest log tree written after hlinkless hkeeps hstores =>
      hkeeps.step hlinkless (hpolicy request hrequest) (hspec request hrequest) hstores)
    hfresh.ready [] keeps_nil
  intro run
  refine ⟨fun x hx y hy => hkeeps.slug_eq_iff hx hy, fun x hx => ?_⟩
  obtain ⟨spec, a, hlatest, hspec, ha, htext⟩ := hkeeps.latest x.1 x.2 hx
  refine ⟨spec, hlatest, fun policy => ?_⟩
  have hread := read_of_slotText ⟨directory, policy⟩ hready.mended rfl
    (hkeeps.valid x.1 x.2 hx).isName htext []
  rw [hread, Artifact.parse_rendered hspec ha]

/-- Three agents whose slugs meet, the first of which is edited in the end. -/
def stockBots : List WriteRequest :=
  let bot (name description : String) : AgentSpec :=
    ⟨name, description, "1.0.0", "Trade.", [], .empty, .empty⟩
  [⟨.suffix, bot "Stock Bot" "First"⟩, ⟨.suffix, bot "stock bot" "Second"⟩,
    ⟨.suffix, bot "Stock Bot 2" "Third"⟩, ⟨.reject, bot "Stock Bot" "Fourth"⟩]

theorem goes_stockBots : Goes "agents" [] stockBots
    ["stock-bot", "stock-bot-2", "stock-bot-2-2", "stock-bot"]
    [("stock-bot", "Stock Bot"), ("stock-bot-2-2", "Stock Bot 2"), ("stock-bot-2", "stock bot"),
      ("stock-bot", "Stock Bot")] := by
  refine .cons .created ?_ (placed_found 0 (Or.inl rfl) ?_ ?_ (.of_free ?_)) <|
    .cons .created ?_ (placed_found 1 (by decide) ?_ ?_ (.of_free ?_)) <|
    .cons .created ?_ (placed_found 1 (by decide) ?_ ?_ (.of_free ?_)) <|
    .cons .updated ?_ (placed_found 0 (Or.inl rfl) ?_ ?_ (.of_owned ?_)) <| .nil _
  all_goals first
    | exact Artifact.exists_renderAs rfl (by decide +kernel) (by decide +kernel)
    | decide +kernel

/-- The four writes succeed, and the theorem tells of them. -/
theorem no_agent_lost_stockBots :
    let run := writeAll "agents" stockBots ⟨emptyAgents, []⟩
    run.1.map (·.2.slug) = ["stock-bot", "stock-bot-2", "stock-bot-2-2", "stock-bot"] ∧
      (∀ x ∈ run.1, ∀ y ∈ run.1, x.2.slug = y.2.slug ↔ x.1.name = y.1.name) ∧
      ∀ x ∈ run.1, ∃ spec, run.1.latest? x.1.name = some spec ∧
        ∀ policy, ((Store.mk "agents" policy).read x.2.slug
          ⟨run.2.disk.mended, []⟩).1 = .ok ⟨spec, [], .matching⟩ := by
  have hholds := fresh_emptyAgents.holds rfl
  exact ⟨(Holds.writeAll ⟨emptyAgents, []⟩ hholds goes_stockBots).1,
    no_agent_lost fresh_emptyAgents (by decide) (by decide)⟩

end Agentry.Store
