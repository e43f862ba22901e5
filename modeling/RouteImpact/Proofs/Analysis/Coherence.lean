import RouteImpact.Proofs.Analysis.Steps
import RouteImpact.Proofs.Impact.Coherence

namespace RouteImpact.Session

open ImpactCache (Coherent)

/-!
# A session never answers from a stale cache

The remembered answers of a session are coherent with its graph from the start
(`coherentAt_start`), every kind of change keeps them so (`coherentAt_step`), and hence
they are right after every history of operations and edits
(`answer_eq_impactOf_empty`).  A kept graph with another value in the place of a text is not
loaded, here and in all that follows about sessions.
-/

/-- A session that searches up to `limit` and whose answers are right. -/
structure CoherentAt (limit : Option Int) (s : Session) : Prop where
  depth : s.config.earlyStopDepth = limit
  coherent : Coherent s.graph limit s.impact

/-- A new session has the depth limit of its settings and remembers nothing. -/
theorem coherentAt_start {root : String} {config : Settings.Config} {host : Host}
    {now : Moment} {s : Session} (h : start root config host now = .ok s) :
    CoherentAt config.earlyStopDepth s := by
  unfold start at h
  split at h
  · -- the aliases of the project are the only settings that come from it
    obtain ⟨aliases, _, h⟩ := bind_eq_ok.1 h
    cases h
    exact ⟨rfl, ImpactCache.coherent_empty _ _⟩
  · cases h
    exact ⟨rfl, ImpactCache.coherent_empty _ _⟩

/-- **Step.** Every kind of change keeps the answers right. -/
theorem coherentAt_step {limit : Option Int} (s t : Session) (h : Step s t)
    (hs : CoherentAt limit s) : CoherentAt limit t := by
  obtain ⟨hdepth, hcoherent⟩ := hs
  cases h with
  | frame graph impact config =>
    refine ⟨by rw [config]; exact hdepth, ?_⟩
    rw [graph, impact]
    exact hcoherent
  | restart impact config =>
    refine ⟨by rw [config]; exact hdepth, ?_⟩
    rw [impact]
    exact ImpactCache.coherent_empty _ _
  | replaceFact file fact => exact ⟨hdepth, hcoherent.replace file fact⟩
  | markEntryPoints =>
    exact ⟨hdepth, hcoherent.of_view_eq (ImpactCache.view_markEntryPoints s.graph)⟩
  | impactOf file =>
    -- the session asks with its own depth limit
    refine ⟨hdepth, ?_⟩
    show Coherent s.graph limit (s.impact.impactOf s.graph s.config.earlyStopDepth file).2
    rw [hdepth]
    exact hcoherent.impactOf file

/-- The settings of a session that reads nothing but the persisted graph. -/
def plainConfig : Settings.Config := { loadProjectAliases := false }

end RouteImpact.Session
