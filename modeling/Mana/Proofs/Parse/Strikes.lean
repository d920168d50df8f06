import Mana.Parsed

/-! Steps that strike the limit on nesting. What strikes goes on to strike, whatever comes after it. -/
namespace Mana

/-- A step strikes the limit by its ending, or by a complaint about a statement that was given up. -/
def Step.Strikes (step : Step α) : Prop :=
  step.outcome = .struck ∨ ∃ diagnostic ∈ step.found, diagnostic.fault = .tooDeep

namespace Step

variable {stream rest : TokenStream} {found : List Diagnostic}

@[simp] theorem strikes_done {result : α} : (⟨.done result, rest, found⟩ : Step α).Strikes ↔
    ∃ diagnostic ∈ found, diagnostic.fault = .tooDeep := by simp [Strikes]

@[simp] theorem strikes_failed : (⟨.failed, rest, found⟩ : Step α).Strikes ↔
    ∃ diagnostic ∈ found, diagnostic.fault = .tooDeep := by simp [Strikes]

@[simp] theorem strikes_struck : (⟨.struck, rest, found⟩ : Step α).Strikes := .inl rfl

@[simp] theorem strikes_since {step : Step α} : (step.since found).Strikes ↔
    (∃ diagnostic ∈ found, diagnostic.fault = .tooDeep) ∨ step.Strikes := by
  simp only [Strikes, since, List.mem_append, or_and_right, exists_or]
  exact or_left_comm

namespace Strikes

theorem since {step : Step α} (strikes : step.Strikes) (found : List Diagnostic) :
    (step.since found).Strikes := by
  rcases strikes with struck | ⟨diagnostic, member, deep⟩
  · exact .inl struck
  · exact .inr ⟨diagnostic, List.mem_append_right found member, deep⟩

theorem andThen {step : Step α} (strikes : step.Strikes)
    (next : α → TokenStream → Step β) : (step.andThen next).Strikes := by
  obtain ⟨outcome, rest, found⟩ := step
  rcases strikes with struck | ⟨diagnostic, member, deep⟩
  · cases struck
    exact .inl rfl
  · refine .inr ⟨diagnostic, ?_, deep⟩
    cases outcome with
    | done result => exact List.mem_append_left _ member
    | failed => exact member
    | struck => exact member

theorem map {step : Step α} (strikes : step.Strikes) (change : α → β) :
    (step.map change).Strikes := by
  obtain ⟨outcome, rest, found⟩ := step
  rcases strikes with struck | complaint
  · cases struck
    exact .inl rfl
  · cases outcome <;> exact .inr complaint

theorem attempt {parse : Parse α} (strikes : (parse.run stream).Strikes) :
    ((Parse.attempt parse).run stream).Strikes := by
  rcases observed : parse.run stream with ⟨outcome, rest, found⟩
  rw [observed] at strikes
  simp only [Parse.attempt, observed]
  cases outcome with
  | done result => exact strikes_done.mpr (strikes_done.mp strikes)
  | failed => exact strikes_done.mpr (strikes_failed.mp strikes)
  | struck => exact strikes_struck

theorem orWhenStruck {parse : Parse α} (strikes : (parse.run stream).Strikes)
    (token : Token) (result : α) :
    ((Parse.orWhenStruck parse (Parse.complain .tooDeep token >>= fun _ => pure result)).run stream).Strikes := by
  rcases observed : parse.run stream with ⟨outcome, rest, found⟩
  rw [observed] at strikes
  simp only [Parse.orWhenStruck, observed]
  cases outcome with
  | done result => exact strikes
  | failed => exact strikes
  | struck => exact strikes_since.mpr (.inr (strikes_done.mpr ⟨_, List.mem_singleton.mpr rfl, rfl⟩))

end Strikes

end Step

end Mana
