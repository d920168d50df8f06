import Mana.Proofs.Parse.Run
import Mana.Proofs.Token.Balance

/-! How many braces a step leaves to be closed. -/
namespace Mana

/-- Wherever the step ends of itself, what is left opens at most so many more braces than it closes. Where it
fails, the current token is left too. -/
structure Step.Opens (step : Step α) (bound : Int) (after : Stage) : Prop where
  done : ∀ result, step.outcome = .done result → step.rest.Opens bound after
  failed : step.outcome = .failed → step.rest.Opens bound .due

namespace Step.Opens

variable {bound : Int} {stage after : Stage} {rest stream : TokenStream} {found : List Diagnostic}

theorem of_done {result : α} (opens : rest.Opens bound after) :
    (⟨.done result, rest, found⟩ : Step α).Opens bound after := ⟨fun _ _ => opens, nofun⟩

theorem of_failed (opens : rest.Opens bound stage) : (⟨.failed, rest, found⟩ : Step α).Opens bound after :=
  ⟨nofun, fun _ => opens.due⟩

theorem of_struck : (⟨.struck, rest, found⟩ : Step α).Opens bound after := ⟨nofun, nofun⟩

theorem since {step : Step α} (opens : step.Opens bound after) : (step.since found).Opens bound after :=
  ⟨opens.done, opens.failed⟩

theorem andThen {step : Step α} {next : α → TokenStream → Step β} (first : step.Opens bound stage)
    (second : ∀ result rest, rest.Opens bound stage → (next result rest).Opens bound after) :
    (step.andThen next).Opens bound after := by
  obtain ⟨outcome, rest, found⟩ := step
  cases outcome with
  | done result => exact (second result rest (first.done result rfl)).since
  | failed => exact of_failed (first.failed rfl)
  | struck => exact of_struck

theorem map {step : Step α} (opens : step.Opens bound after) (change : α → β) :
    (step.map change).Opens bound after := by
  obtain ⟨outcome, rest, found⟩ := step
  cases outcome with
  | done result => exact of_done (opens.done result rfl)
  | failed => exact of_failed (opens.failed rfl)
  | struck => exact of_struck

open Parse

theorem iterate {round : σ → Parse (Round σ α)}
    (each : ∀ state stream, stream.Opens bound stage → ((round state).run stream).Opens bound stage) (state : σ)
    (opens : stream.Opens bound stage) : ((iterate round state).run stream).Opens bound stage := by
  induction stream using TokenStream.induct generalizing state with
  | fewer stream ih =>
    rw [run_iterate]
    apply (each state stream opens).andThen
    intro decision rest opens
    cases decision with
    | stop result => exact of_done opens
    | again next finish =>
      simp only
      split
      · rename_i shorter
        exact (ih rest shorter next opens).map finish
      · exact of_struck

theorem collect {round : Parse (Gain α)}
    (each : ∀ stream : TokenStream, stream.Opens bound stage → (round.run stream).Opens bound stage)
    (opens : stream.Opens bound stage) : ((collect round).run stream).Opens bound stage := by
  refine .iterate (fun _ stream opens => (each stream opens).andThen fun gain rest opens => ?_) () opens
  cases gain <;> exact of_done opens

end Step.Opens

end Mana
