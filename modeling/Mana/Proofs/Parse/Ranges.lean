import Mana.Proofs.Parse.Run
import Mana.Proofs.Token.Trail

/-! Where steps complain: no earlier than the first token that they have to read, and no later than the first one
that they leave unread. -/
namespace Mana

/-- What a step leaves unread. Where it is done, its result says whether the current token is read; where it is not
done, the current token is the last one that counts as read. -/
def Step.unread (step : Step α) (after : α → Stage) : TokenStream :=
  match step.outcome with
  | .done result => step.rest.onward (after result)
  | .failed | .struck => step.rest.advanced

namespace Parse

/-- The stage after a round of a loop: the last token of the loop is read, or another round begins. -/
def Round.after (before : Stage) : Round σ α → Stage
  | .stop _ => .read
  | .again .. => before

/-- The stage after a round of a collection. -/
def Gain.after (before : Stage) : Gain α → Stage
  | .stop => .read
  | .nothing | .item _ => before

end Parse

/-- A step stays within the stream, passes no token back, and complains about tokens from the first one due on up to
the first one that it leaves unread. -/
structure Step.Ranges (step : Step α) (stream : TokenStream) (before : Stage) (after : α → Stage) : Prop where
  within : step.rest.Within stream
  unread : (step.unread after).Within (stream.onward before)
  located : ∀ diagnostic ∈ step.found, ∃ place : TokenStream, place.Within (stream.onward before) ∧
    (step.unread after).Within place ∧ diagnostic.location = place.current.location

namespace Step.Ranges

variable {stream rest : TokenStream} {before : Stage} {after : α → Stage} {found : List Diagnostic}

theorem done {result : α} (stage : after result = before) :
    (⟨.done result, stream, []⟩ : Step α).Ranges stream before after :=
  ⟨.refl stream, stage ▸ .refl _, List.forall_mem_nil _⟩

theorem struck : (⟨.struck, stream, []⟩ : Step α).Ranges stream before after :=
  ⟨.refl stream, stream.advanced_within_onward before, List.forall_mem_nil _⟩

theorem refused {token : Token} (next : stream.next before = token) :
    (⟨.failed, stream, [⟨fault, token.location⟩]⟩ : Step α).Ranges stream before after where
  within := .refl stream
  unread := stream.advanced_within_onward before
  located := by
    intro diagnostic member
    obtain rfl := List.mem_singleton.mp member
    exact ⟨stream.onward before, .refl _, stream.advanced_within_onward before, by rw [stream.onward_current, next]⟩

theorem take {step : Step α} (ranges : step.Ranges stream .read after) : step.Ranges stream .due after where
  within := ranges.within
  unread := ranges.unread.trans (.advanced stream)
  located diagnostic member := by
    obtain ⟨place, later, left, located⟩ := ranges.located diagnostic member
    exact ⟨place, later.trans (.advanced stream), left, located⟩

theorem of_advanced {step : Step α} (ranges : step.Ranges stream.advanced .due after) :
    step.Ranges stream .read after :=
  ⟨ranges.within.trans (.advanced stream), ranges.unread, ranges.located⟩

theorem andThen {step : Step α} {middle : α → Stage} {after : β → Stage} {next : α → TokenStream → Step β}
    (first : step.Ranges stream before middle)
    (second : ∀ result rest, (next result rest).Ranges rest (middle result) after) :
    (step.andThen next).Ranges stream before after := by
  obtain ⟨outcome, rest, found⟩ := step
  cases outcome with
  | failed => exact ⟨first.within, first.unread, first.located⟩
  | struck => exact ⟨first.within, first.unread, first.located⟩
  | done result =>
    have later := second result rest
    have onward : (rest.onward (middle result)).Within (stream.onward before) := first.unread
    refine ⟨later.within.trans first.within, later.unread.trans onward, fun diagnostic member => ?_⟩
    rcases List.mem_append.mp member with own | own
    · obtain ⟨place, after, left, located⟩ := first.located diagnostic own
      exact ⟨place, after, later.unread.trans left, located⟩
    · obtain ⟨place, after, left, located⟩ := later.located diagnostic own
      exact ⟨place, after.trans onward, left, located⟩

theorem map {step : Step α} {after : β → Stage} {change : α → β}
    (ranges : step.Ranges stream before (after ∘ change)) : (step.map change).Ranges stream before after := by
  obtain ⟨outcome, rest, found⟩ := step
  cases outcome <;> exact ⟨ranges.within, ranges.unread, ranges.located⟩

open Parse

theorem attempt {parse : Parse α} (ranges : (parse.run stream).Ranges stream before fun _ => .read) :
    ((Parse.attempt parse).run stream).Ranges stream before fun _ => .read := by
  rcases observed : parse.run stream with ⟨outcome, rest, found⟩
  rw [observed] at ranges
  simp only [Parse.attempt, observed]
  cases outcome <;> exact ⟨ranges.within, ranges.unread, ranges.located⟩

theorem orWhenStruck {parse : Parse α} {token : Token} {result : α}
    (ranges : (parse.run stream).Ranges stream .due fun _ => .read) (current : stream.current = token) :
    ((Parse.orWhenStruck parse (complain fault token >>= fun _ => pure result)).run stream).Ranges stream .due
      fun _ => .read := by
  rcases observed : parse.run stream with ⟨outcome, rest, found⟩
  rw [observed] at ranges
  simp only [Parse.orWhenStruck, observed]
  cases outcome with
  | done result => exact ⟨ranges.within, ranges.unread, ranges.located⟩
  | failed => exact ⟨ranges.within, ranges.unread, ranges.located⟩
  | struck =>
    refine ⟨ranges.within, ranges.unread, fun diagnostic member => ?_⟩
    rcases List.mem_append.mp member with own | own
    · exact ranges.located diagnostic own
    · obtain rfl := List.mem_singleton.mp own
      exact ⟨stream, .refl stream, ranges.unread, congrArg Token.location current.symm⟩

/-- A loop that goes on ranges from where it goes on, or is struck there. -/
theorem again {round : σ → Parse (Round σ α)} {next : σ} {finish : α → α}
    (goes : rest.count < stream.count → ((iterate round next).run rest).Ranges rest before fun _ => .read) :
    (if rest.count < stream.count then ((iterate round next).run rest).map finish else ⟨.struck, rest, []⟩).Ranges
      rest before fun _ => .read := by
  split
  · rename_i shorter
    exact .map (goes shorter)
  · exact .struck

theorem iterate {round : σ → Parse (Round σ α)}
    (each : ∀ state stream, ((round state).run stream).Ranges stream before (Round.after before)) (state : σ) :
    ((iterate round state).run stream).Ranges stream before fun _ => .read := by
  induction stream using TokenStream.induct generalizing state with
  | fewer stream ih =>
    rw [run_iterate]
    apply (each state stream).andThen
    intro decision rest
    cases decision with
    | stop result => exact .done rfl
    | again next finish => exact .again fun shorter => ih rest shorter next

end Step.Ranges

end Mana
