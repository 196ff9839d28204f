import Scenario.Proofs.ActionsInFull
import Scenario.Proofs.RecastParts

namespace Scenario

open Syntax
open Syntax.Node (inFull inFull_eq_recast AllAvoid)

theorem extract_inFull (options : Options) {body : List Node} (h : AllAvoid body) :
    extract options (body.map inFull) = extract options body := by
  have hmetadata : Metadata.ofProgram (body.map inFull) = Metadata.ofProgram body := by
    rw [inFull_eq_recast, Metadata.ofProgram_recast]
  have hrendered : Rendered.ofProgram options (body.map inFull) = Rendered.ofProgram options body := by
    rw [inFull_eq_recast, Rendered.ofProgram_recast]
  simp only [extract, hmetadata, hrendered, collectActions_inFull h]

/-- Of programs that are the same in full, none binds a reserved name if one does not. -/
theorem allAvoid_of_inFull_eq {body body' : List Node} (h : body.map inFull = body'.map inFull)
    (hbody : AllAvoid body) : AllAvoid body' := by
  intro n hn
  have hmem : n.inFull ∈ body.map inFull := by
    rw [h]
    exact List.mem_map_of_mem hn
  obtain ⟨m, hm, heq⟩ := List.mem_map.1 hmem
  rw [← Node.avoids_inFull, ← heq, Node.avoids_inFull]
  exact hbody m hm

end Scenario
