import GpuListing.Proofs.Capability.Cells
import GpuListing.Proofs.Capability.Concurrent

/-! # Runs with callers at once

A bench answers a request in turn, or lets the callers of `ensureTogether` move in any order. Whichever it
does, the calls it tells and the bench it leaves are those of the callers in turn, and only the order of the
verdicts may be another one. -/

namespace GpuListing

variable {World : Type}

namespace Bench

/-- The ways in which a request may be performed, with the reply and the bench afterwards. -/
inductive Performs (provider : Provider World) : Bench World → Request → Reply → Bench World → Prop where
  | inTurn (b : Bench World) (request : Request) :
      Performs provider b request (b.perform provider request).1 (b.perform provider request).2
  | atOnce (b : Bench World) {family : Family} {callers : Nat} {order : List Nat} {c : Crowd World} :
      0 < callers →
      (Crowd.start callers (b.initializer.readiness family) b.world).run provider family order = some c →
      c.isDone = true →
      Performs provider b (.ensureTogether family callers) ⟨.verdicts c.verdicts, c.shared.calls⟩
        ⟨b.initializer.put family c.shared.readiness, b.slots, c.shared.world⟩

/-- The ways in which requests may be performed one after another. -/
inductive Runs (provider : Provider World) : Bench World → List Request → List Reply → Bench World → Prop where
  | nil (b : Bench World) : Runs provider b [] [] b
  | cons {b next last : Bench World} {request : Request} {reply : Reply} {rest : List Request}
      {replies : List Reply} : Performs provider b request reply next → Runs provider next rest replies last →
      Runs provider b (request :: rest) (reply :: replies) last

variable {provider : Provider World} {b b' : Bench World} {request : Request} {reply : Reply}

/-- Performed in any way, a request comes to what it comes to in turn, but for the order of verdicts. -/
theorem Performs.like (h : Performs provider b request reply b') (reachable : b.Reachable) :
    b' = (b.perform provider request).2 ∧ reply.calls = (b.perform provider request).1.calls ∧
      reply.answer.told.Perm (b.perform provider request).1.answer.told := by
  cases h with
  | inTurn => exact ⟨rfl, rfl, .refl _⟩
  | @atOnce family callers order c hpos hrun hd =>
    have sound := (reachable (.family family)).sound
    obtain ⟨hcalls, hreadiness, hworld, hverdicts⟩ := Crowd.run_isDone sound hrun hd
    have hne : callers ≠ 0 := by omega
    simp only [perform, ensureEach_eq, if_neg hne]
    refine ⟨?_, hcalls, hverdicts⟩
    rw [hreadiness, hworld]
    rfl

theorem Performs.reachable (h : Performs provider b request reply b') (reachable : b.Reachable) :
    b'.Reachable := by
  rw [(h.like reachable).1]
  exact reachable.perform provider request

/-- Requests in turn are one of the ways to perform them. -/
theorem runs_run (provider : Provider World) (requests : List Request) (b : Bench World) :
    Runs provider b requests (run provider requests b).1 (run provider requests b).2 := by
  induction requests generalizing b with
  | nil => exact .nil b
  | cons request rest ih => exact .cons (.inTurn b request) (ih _)

end Bench

end GpuListing
