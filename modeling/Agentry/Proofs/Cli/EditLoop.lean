import Agentry.Cli.Create
import Agentry.Cli.Listing
import Agentry.Proofs.Artifact.Stamp
import Agentry.Proofs.Store.Again
import Agentry.Proofs.Store.Rewriting
/-!
# Showing an agent and creating it again

A spec is shown as its document. The document gives the spec back, also from among what is shown
beside it, so an agent that is shown, saved and created again is the same agent.
-/
namespace Agentry.Cli

open Artifact (parseSpec)
open Json (Decoder Value)

/-- Reads the spec in what is shown in JSON. -/
def shownDecoder : Decoder AgentSpec :=
  Decoder.record [Decoder.field "spec" false AgentSpec.decoder id fun _ spec => some spec] none id

variable {settings : Settings} {slug text path : String} {disk after : Disk}
  {parsed : ParsedArtifact}

theorem integral_parsedJson (parsed : ParsedArtifact) : (parsedJson parsed).Integral := by
  have hissues : (Value.array (parsed.issues.map issueJson)).Integral := by
    rw [Value.Integral, Value.integralItems_iff]
    intro item hitem
    obtain ⟨issue, -, rfl⟩ := List.mem_map.mp hitem
    exact ⟨trivial, trivial, trivial⟩
  exact ⟨parsed.spec.integral_toJson, hissues, trivial, trivial⟩

theorem shownDecoder_parsedJson (h : parsed.spec.WellFormed) (depth : Nat) :
    shownDecoder (depth + 4) (Json.Node.ofValue (parsedJson parsed)) = .ok parsed.spec := by
  obtain ⟨-, hissues, -⟩ := integral_parsedJson parsed
  have hspec := AgentSpec.decoder_toJson h depth
  have hintact := Value.intact_ofValue _ hissues
  rw [Json.Node.ofValue, Json.Node.intact] at hintact
  simp [shownDecoder, Decoder.record, Decoder.recordMembers, parsedJson, Json.Node.ofValue,
    Json.Node.ofMembers, Decoder.field, Decoder.passOver, hspec, hintact, Json.Node.intact, bind,
    Except.bind, pure, Except.pure]

theorem display_of_readText
    (h : disk.readText ((Store.mk settings.registry .reject).artifactPath slug) =
      (.ok text, after)) :
    display settings slug disk =
      (if settings.json then .ok ((parsedJson (Artifact.parse text)).prettyText ++ "\n")
        else ⟨0, (parseSpec text).toJson.prettyText ++ "\n",
          String.join ((Artifact.parse text).issues.map warning)⟩, after) := by
  simp only [display, Store.read, Store.readPath, Workbench.doing, h]
  rfl

theorem specOf_of_decode {spec : AgentSpec} (hread : disk.readText path = (.ok text, after))
    (hdecode : Json.decode AgentSpec.decoder text = .ok spec) :
    specOf (.file path) disk = (.ok spec, after) := by
  simp only [specOf, readNamed, hread, decodeSpec, hdecode]
  rfl

/-- A spec survives its document in either layout. So what is shown of any artifact is created again
as the spec that the artifact reads back to, and if the artifact is what a write left at its path,
to write that spec there again changes nothing. -/
theorem display_create_lossless :
    (∀ spec : AgentSpec, spec.WellFormed →
      Json.decode AgentSpec.decoder spec.toJson.text = .ok spec ∧
        Json.decode AgentSpec.decoder spec.toJson.prettyText = .ok spec) ∧
      (∀ (settings : Settings) (slug text : String) (disk after : Disk),
        disk.readText ((Store.mk settings.registry .reject).artifactPath slug) =
            (.ok text, after) →
          ∃ reply, display settings slug disk = (reply, after) ∧ reply.exitCode = 0 ∧
            (settings.json = true →
              Json.decode shownDecoder reply.stdout = .ok (parseSpec text)) ∧
            (settings.json = false → ∀ (path : String) (saved last : Disk),
              saved.readText path = (.ok reply.stdout, last) →
                specOf (.file path) saved = (.ok (parseSpec text), last))) ∧
      ∀ (store : Store) (spec : AgentSpec) (bench last : Workbench) (written : Written)
        (text : String), spec.inputs.names.Nodup → spec.outputs.names.Nodup →
        bench.disk.Honest → store.write spec bench = (.ok written, last) →
        last.disk.tree.readText last.disk.home written.path = .ok text → ∀ events : List Event,
          ∃ final, store.write (parseSpec text) ⟨last.disk.mended, events⟩ =
              (.ok { written with outcome := .unchanged }, final) ∧
            final.disk = last.disk.mended := by
  refine ⟨fun spec => AgentSpec.decode_toJson, ?_, ?_⟩
  · intro settings slug text disk after hread
    have hspec : (parseSpec text).WellFormed := Artifact.wellFormed_parse text
    refine ⟨_, display_of_readText hread, ?_, fun hjson => ?_,
      fun hjson path saved last hsaved => ?_⟩
    · split <;> rfl
    · rw [if_pos hjson]
      exact Value.decode_prettyText_line (integral_parsedJson _) (shownDecoder_parsedJson hspec 123)
    · rw [if_neg (by simp [hjson])] at hsaved
      exact specOf_of_decode hsaved (Value.decode_prettyText_line (parseSpec text).integral_toJson
        (AgentSpec.decoder_toJson hspec 124))
  · intro store spec bench last written text hinputs houtputs hhonest hwrite htext
    exact Store.write_parseSpec hinputs houtputs hhonest hwrite htext

/-- Where what is shown of the rival is saved. -/
def savedDisk : Disk :=
  .sound ⟨[(["spec.json"], .file
    (display ⟨false, "agents", 30000, false⟩ "stock-bot" Store.rivalDisk).1.stdout.toUTF8
      0o644)]⟩ []

theorem display_create_lossless_rivalDisk :
    Json.decode AgentSpec.decoder Artifact.forger.toJson.prettyText = .ok Artifact.forger ∧
      specOf (.file "spec.json") savedDisk = (.ok (parseSpec "name: \"Rival\""), savedDisk) ∧
      ∃ written last text final,
        (Store.mk "agents" .suffix).write Store.stockBot ⟨Store.rivalDisk, []⟩ =
            (.ok written, last) ∧ written.slug = "stock-bot-2" ∧
          last.disk.tree.readText last.disk.home written.path = .ok text ∧
          (Store.mk "agents" .suffix).write (parseSpec text) ⟨last.disk.mended, []⟩ =
            (.ok { written with outcome := .unchanged }, final) ∧
          final.disk = last.disk.mended := by
  obtain ⟨hdecode, hdisplay, hwriteAgain⟩ := display_create_lossless
  refine ⟨(hdecode Artifact.forger (by decide)).2, ?_, ?_⟩
  · have hrival : Store.rivalDisk.tree.readText Store.rivalDisk.home
        "agents/stock-bot.agent.rs" = .ok "name: \"Rival\"" :=
      FileTree.readText_eq_ok_iff.mpr
        ⟨["agents", "stock-bot.agent.rs"], 0o600, by decide +kernel, rfl⟩
    obtain ⟨reply, hreply, -, -, hsaved⟩ := hdisplay ⟨false, "agents", 30000, false⟩ "stock-bot"
      _ _ _ (Store.readText_of_faultless rfl hrival)
    have hfile : savedDisk.tree.readText savedDisk.home "spec.json" = .ok reply.stdout := by
      refine FileTree.readText_eq_ok_iff.mpr ⟨["spec.json"], 0o644, by decide +kernel, ?_⟩
      have hreply' : (display ⟨false, "agents", 30000, false⟩ "stock-bot" Store.rivalDisk).1 =
          reply := congrArg Prod.fst hreply
      rw [← hreply']
      rfl
    exact hsaved rfl "spec.json" savedDisk savedDisk (Store.readText_of_faultless rfl hfile)
  · obtain ⟨b, hb⟩ := Store.exists_render_stockBot
    obtain ⟨written, tree, last, hwrite, hstores, hkept⟩ :=
      Store.write_of_placed ⟨"agents", .suffix⟩ ⟨Store.rivalDisk, []⟩ Store.ready_rivalDisk rfl hb
        Store.placed_beside_rivalDisk
    obtain ⟨outcome, hplaced, -⟩ := hstores.placed
    obtain ⟨hslug, -⟩ := hplaced.unique Store.placed_beside_rivalDisk
    -- What stands in the place of the slug is what the path of its file leads to.
    obtain ⟨a, -, htext⟩ := hstores.slotText_eq Store.ready_rivalDisk.linkless
    have hready := hstores.ready Store.ready_rivalDisk hkept
    have hread : last.disk.tree.readText last.disk.home written.path = .ok a.source := by
      rw [hstores.path_eq]
      refine (FileTree.readText_join hready.leads hstores.valid.isName hready.linkless).trans ?_
      rw [hkept.tree]
      exact (htext written.slug).trans (if_pos rfl)
    obtain ⟨final, hagain, hfinal⟩ := hwriteAgain ⟨"agents", .suffix⟩ Store.stockBot
      ⟨Store.rivalDisk, []⟩ last written a.source (by decide) (by decide) List.not_mem_nil hwrite
      hread []
    exact ⟨written, last, a.source, final, hwrite, hslug, hread, hagain, hfinal⟩

end Agentry.Cli
