import Mana.Proofs.Grammar.Locality
import Mana.Proofs.Token.Indexed
import Mana.Stepper

/-! The window of a parser driven by hand. Whatever commands are given, its two tokens are neighbours in the source and
never move back, and every complaint is about a token between the window before a command and the one after it. -/
namespace Mana

open Grammar Parse

theorem Step.Ranges.remarked {stream : TokenStream} {token : Token} (next : stream.next before = token) (result : α) :
    (⟨.done result, stream, [⟨fault, token.location⟩]⟩ : Step α).Ranges stream before fun _ => .read :=
  have refused : (⟨.failed, stream, [⟨fault, token.location⟩]⟩ : Step α).Ranges stream before fun _ => .read :=
    .refused next
  ⟨refused.within, refused.unread, refused.located⟩

namespace Stepper

/-- A command complains about no token before the current one, and about none behind the upcoming one that it leaves. -/
theorem Command.ranges (limit : Nat) (stepper : Stepper) (stream : TokenStream) (command : Command) :
    ((command.step limit stepper).run stream).Ranges stream .due fun _ => .read := by
  have settled := expression_local stepper.rules limit
  have kept (answer : Answer) : Parse.Local (pure answer) .read fun _ => .read := .pure rfl
  cases command with
  | advance => exact (Local.take (.advance_bind (kept _).take)).ranges stream
  | upcomingStrength | upcomingIs => exact (Local.take (.upcoming_bind fun _ => .of_local (kept _))).ranges stream
  | currentStrength | currentIs => exact (Local.take (.read_bind fun _ => kept _)).ranges stream
  | begin opening => exact (Local.bind (settled.opening opening) fun _ => kept _).ranges stream
  | extend extension left => exact (Local.bind (settled.extension left extension) fun _ => kept _).ranges stream
  | expression strength => exact (Local.bind (settled strength) fun _ => kept _).ranges stream
  | series item closing =>
    exact (Local.take (.bind (local_series (settled.opening item) closing) fun _ => kept _)).ranges stream
  | expect kind => exact (Local.take (.bind (local_expect kind).attempt fun _ => kept _)).ranges stream
  | faultUpcoming wanted => exact .take (.remarked (show stream.next .read = stream.upcoming from rfl) Answer.nothing)
  | faultOpening kind => exact .remarked (show stream.next .due = stream.current from rfl) Answer.nothing
  | remark text slot =>
    cases slot with
    | current => exact .remarked (show stream.next .due = stream.current from rfl) Answer.nothing
    | upcoming => exact .take (.remarked (show stream.next .read = stream.upcoming from rfl) Answer.nothing)
  | recover stops => exact .take ((ranges_recover stepper.mark stops stream).andThen fun _ rest => (kept _).ranges rest)
  | skip stops => exact .take ((ranges_skip stops stream).andThen fun _ rest => (kept _).ranges rest)
  | messages | mark | setOpening | setExtension => exact (kept _).take.ranges stream

/-- The parser after commands, one after the other. -/
def after (limit : Nat) (stepper : Stepper) (commands : List Command) : Stepper :=
  commands.foldl (fun stepper command => (perform limit stepper command).stepper) stepper

theorem after_concat (limit : Nat) (stepper : Stepper) (commands : List Command) (command : Command) :
    stepper.after limit (commands ++ [command]) = (perform limit (stepper.after limit commands) command).stepper := by
  rw [after, List.foldl_append]
  rfl

theorem after_within (limit : Nat) (stepper : Stepper) (commands : List Command) :
    (stepper.after limit commands).ahead.Within stepper.ahead := by
  induction commands generalizing stepper with
  | nil => exact .refl _
  | cons command commands ih => exact (ih _).trans (command.ranges limit stepper stepper.ahead).within

/-- The window of the parser is at an index of the tokens. -/
structure Shows (stepper : Stepper) (tokens : TokenStream) (index : Nat) : Prop where
  current : stepper.ahead.current = tokens.tokenAt index
  upcoming : stepper.ahead.upcoming = tokens.tokenAt (index + 1)

/-- The window has moved on from one index to another, and what was recorded on the way is about tokens from the first
one on up to the one after the second. -/
structure Moves (stepper later : Stepper) (tokens : TokenStream) (index next : Nat) : Prop where
  forward : index ≤ next
  recorded : ∃ found, later.recorded = stepper.recorded ++ found ∧ ∀ diagnostic ∈ found,
    ∃ place, index ≤ place ∧ place ≤ next + 1 ∧ diagnostic.location = (tokens.tokenAt place).location

variable {stepper : Stepper} {tokens : TokenStream}

theorem shows_of_within (within : stepper.ahead.Within tokens) :
    stepper.Shows tokens (tokens.count - stepper.ahead.count) where
  current := by rw [TokenStream.current_eq_token, within.tokenAt, Nat.add_zero]
  upcoming := by rw [TokenStream.upcoming_eq_token, within.tokenAt]

theorem moves_of_within (limit : Nat) (within : stepper.ahead.Within tokens) (command : Command) :
    stepper.Moves (perform limit stepper command).stepper tokens (tokens.count - stepper.ahead.count)
      (tokens.count - (perform limit stepper command).stepper.ahead.count) := by
  have ranges := command.ranges limit stepper stepper.ahead
  have passed : (perform limit stepper command).stepper.ahead.count ≤ stepper.ahead.count := ranges.within.count_le
  refine ⟨by omega, _, rfl, fun diagnostic member => ?_⟩
  obtain ⟨place, later, left, located⟩ := ranges.located diagnostic member
  have bound : (perform limit stepper command).stepper.ahead.count - 1 ≤ place.count := by
    have unread : ∀ step : Step Answer, (step.unread fun _ => .read).count = step.rest.count - 1 := by
      rintro ⟨outcome, rest, found⟩
      cases outcome <;> rfl
    exact unread _ ▸ left.count_le
  have ahead : place.count ≤ stepper.ahead.count := later.count_le
  refine ⟨tokens.count - place.count, by omega, by omega, ?_⟩
  rw [located, TokenStream.current_eq_token, (later.trans within).tokenAt, Nat.add_zero]

/-- Along every run of commands, the window is at an index of the tokens of the source that never decreases, and
diagnostics are only ever added, about tokens between the window before a command and the one after it. -/
theorem window_moves (limit : Nat) (source : Text) : ∃ index : List Command → Nat, ∀ commands,
    ((start source).after limit commands).Shows (scan source) (index commands) ∧
      ∀ command, ((start source).after limit commands).Moves ((start source).after limit (commands ++ [command]))
        (scan source) (index commands) (index (commands ++ [command])) := by
  refine ⟨fun commands => (scan source).count - ((start source).after limit commands).ahead.count, fun commands => ?_⟩
  have within : ((start source).after limit commands).ahead.Within (scan source) := after_within limit _ commands
  refine ⟨shows_of_within within, fun command => ?_⟩
  simp only [after_concat]
  exact moves_of_within limit within command

end Stepper

end Mana
