import Mana.Proofs.Parse.Opens
import Mana.Proofs.Parse.Proceeds

/-! What a step ensures, however it ends. -/
namespace Mana

/-- Neither the end nor a brace. -/
def Kind.Plain (kind : Kind) : Prop := kind ≠ .eof ∧ kind.turn = 0

instance (kind : Kind) : Decidable kind.Plain := inferInstanceAs (Decidable (_ ∧ _))

/-- A step proceeds through the stream, and leaves no more braces to be closed than there are before it. -/
structure Step.Ensures (step : Step α) (depth : Nat) (stream : TokenStream) (before after : Stage)
    (told : α → List Token → Prop) : Prop extends step.Proceeds depth stream before after told where
  opens : ∀ bound, stream.Opens bound before → step.Opens bound after

namespace Step.Ensures

variable {stream rest : TokenStream} {before middle after : Stage} {found : List Diagnostic} {depth : Nat}
  {told : α → List Token → Prop}

theorem done (tells : told result []) :
    (⟨.done result, stream, []⟩ : Step α).Ensures depth stream before before told :=
  ⟨.done tells, fun _ opens => .of_done opens⟩

theorem refused {token : Token} (raised : fault.RaisedAt token) (next : stream.next before = token) :
    (⟨.failed, stream, [⟨fault, token.location⟩]⟩ : Step α).Ensures depth stream before after told :=
  ⟨.refused raised next, fun _ opens => .of_failed opens⟩

theorem strike : (⟨.struck, stream, []⟩ : Step α).Ensures 0 stream .due after told := ⟨.strike, fun _ _ => .of_struck⟩

theorem imp {step : Step α} {weaker : α → List Token → Prop} (ensures : step.Ensures depth stream before after told)
    (implies : ∀ result word, told result word → weaker result word) :
    step.Ensures depth stream before after weaker :=
  ⟨ensures.toProceeds.imp implies, ensures.opens⟩

theorem of_advanced {step : Step α} (ensures : step.Ensures depth stream.advanced .due after told) :
    step.Ensures depth stream .read after told :=
  ⟨.of_advanced ensures.toProceeds, fun bound opens => ensures.opens bound opens.advanced⟩

theorem descend {step : Step α} (plain : stream.current.kind.Plain)
    (ensures : step.Ensures depth stream .read after fun result word => told result (stream.current :: word)) :
    step.Ensures (depth + 1) stream .due after told :=
  ⟨.descend plain.1 ensures.toProceeds, fun bound opens => ensures.opens bound (opens.take plain.2)⟩

theorem take {step : Step α} (plain : stream.current.kind.Plain)
    (ensures : step.Ensures depth stream .read after fun result word => told result (stream.current :: word)) :
    step.Ensures depth stream .due after told :=
  ⟨.take plain.1 ensures.toProceeds, fun bound opens => ensures.opens bound (opens.take plain.2)⟩

theorem andThen {step : Step α} {tells : α → List Token → Prop} {told : β → List Token → Prop}
    {next : α → TokenStream → Step β} (first : step.Ensures depth stream before middle tells)
    (second : ∀ result word rest, tells result word →
      (next result rest).Ensures depth rest middle after fun final more => told final (word ++ more)) :
    (step.andThen next).Ensures depth stream before after told where
  toProceeds := first.toProceeds.andThen fun result word rest _ tells => (second result word rest tells).toProceeds
  opens bound opens := by
    obtain ⟨outcome, rest, found⟩ := step
    cases outcome with
    | done result =>
      obtain ⟨word, _, _, tells⟩ := first.read result rfl
      exact ((second result word rest tells).opens bound ((first.opens bound opens).done result rfl)).since
    | failed => exact .of_failed ((first.opens bound opens).failed rfl)
    | struck => exact .of_struck

open Parse

theorem iterate {round : σ → Parse (Round σ α)} (told : σ → α → List Token → Prop)
    (each : ∀ state stream, ((round state).run stream).Ensures depth stream before before (Round.Tells told state))
    (state : σ) : ((iterate round state).run stream).Ensures depth stream before before (told state) where
  toProceeds := .iterate told (fun state stream => (each state stream).toProceeds) state
  opens bound opens := .iterate (fun state stream => (each state stream).opens bound) state opens

theorem collect {round : Parse (Gain α)} (told : List α → List Token → Prop)
    (each : ∀ stream, (round.run stream).Ensures depth stream before before (Gain.Tells told)) :
    ((collect round).run stream).Ensures depth stream before before told where
  toProceeds := .collect told fun stream => (each stream).toProceeds
  opens bound opens := .collect (fun stream => (each stream).opens bound) opens

end Step.Ensures

end Mana
