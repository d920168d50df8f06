import Mana.Proofs.Parse.Settles

/-! Parsers that look ahead by one token. A parser settles the token that is due, with all complaints about it,
before it looks at any later one. -/
namespace Mana.Parse

/-- With this token next, the parser complains from there on only, and does the same on streams that share the token,
up to where they are no longer the same. -/
structure LocalAt (parse : Parse α) (token : Token) (before : Stage) (after : α → Stage) : Prop where
  ranges : ∀ stream, stream.next before = token → (parse.run stream).Ranges stream before after
  settles : ∀ {fork : Fork} {word stream other}, fork.Shares before (token :: word) stream other →
    (parse.run stream).Settles fork after (parse.run other)

/-- Whatever token is next, the parser settles it before it looks at others. -/
def Local (parse : Parse α) (before : Stage) (after : α → Stage) : Prop :=
  ∀ token, parse.LocalAt token before after

namespace Local

variable {parse : Parse α} {before : Stage} {after : α → Stage}

theorem ranges (settled : parse.Local before after) (stream : TokenStream) :
    (parse.run stream).Ranges stream before after := (settled _).ranges stream rfl

/-- Streams that share nothing any more are beyond. -/
theorem settles (settled : parse.Local before after) {fork : Fork} {word : List Token} {stream other : TokenStream}
    (shares : fork.Shares before word stream other) : (parse.run stream).Settles fork after (parse.run other) := by
  cases word with
  | nil => exact .of_ranges shares (settled.ranges stream) (settled.ranges other)
  | cons token word => exact (settled token).settles shares

end Local

namespace LocalAt

variable {parse : Parse α} {token : Token} {before : Stage}

theorem pure {result : α} {after : α → Stage} (stage : after result = before) :
    (pure result : Parse α).LocalAt token before after where
  ranges _ _ := .done stage
  settles shares := .done (stage ▸ shares)

theorem of_local {after : α → Stage} (settled : parse.Local before after) : parse.LocalAt token before after :=
  settled token

theorem refused {after : α → Stage} (fault : Fault) :
    (complain fault token >>= fun _ => fail : Parse α).LocalAt token before after where
  ranges _ next := .refused next
  settles shares := by
    cases shares with
    | due => exact .failed (.take .due)
    | read => exact .failed .read

theorem take {after : α → Stage} (settled : parse.Local .read after) : parse.LocalAt token .due after where
  ranges stream _ := (settled.ranges stream).take
  settles shares := settled.settles shares.take

theorem bind {first : Parse α} {second : α → Parse β} {middle : α → Stage} {after : β → Stage}
    (former : first.LocalAt token before middle) (latter : ∀ result, (second result).Local (middle result) after) :
    (first >>= second).LocalAt token before after where
  ranges stream next := (former.ranges stream next).andThen fun result rest => (latter result).ranges rest
  settles shares := (former.settles shares).andThen (fun result _ _ _ later => (latter result).settles later)
    (fun result rest => (latter result).ranges rest) fun result rest => (latter result).ranges rest

theorem advance_bind {follow : Unit → Parse α} {after : α → Stage} (settled : (follow ()).LocalAt token .due after) :
    (advance >>= follow).LocalAt token .read after where
  ranges stream next := (settled.ranges stream.advanced next).of_advanced
  settles shares := settled.settles shares.advanced

theorem advance : advance.LocalAt token .read fun _ => .read :=
  advance_bind (.take fun _ => .pure rfl)

theorem attempt (settled : parse.LocalAt token before fun _ => .read) :
    (attempt parse).LocalAt token before fun _ => .read where
  ranges stream next := (settled.ranges stream next).attempt
  settles shares := (settled.settles shares).attempt

theorem orWhenStruck (settled : parse.LocalAt token .due fun _ => .read) (result : α) :
    (orWhenStruck parse (complain .tooDeep token >>= fun _ => Pure.pure result)).LocalAt token .due fun _ => .read where
  ranges stream next := (settled.ranges stream next).orWhenStruck next
  settles shares := (settled.settles shares).orWhenStruck token result

end LocalAt

namespace Local

variable {parse : Parse α} {before : Stage} {after : α → Stage}

theorem pure {result : α} (stage : after result = before) : (pure result : Parse α).Local before after :=
  fun _ => .pure stage

theorem take (settled : parse.Local .read after) : parse.Local .due after := fun _ => .take settled

theorem bind {first : Parse α} {second : α → Parse β} {middle : α → Stage} {after : β → Stage}
    (former : first.Local before middle) (latter : ∀ result, (second result).Local (middle result) after) :
    (first >>= second).Local before after := fun token => (former token).bind latter

theorem attempt (settled : parse.Local before fun _ => .read) : (attempt parse).Local before fun _ => .read :=
  fun token => (settled token).attempt

theorem advance_bind {follow : Unit → Parse α} (settled : (follow ()).Local .due after) :
    (advance >>= follow).Local .read after := fun token => (settled token).advance_bind

theorem current_bind {follow : Token → Parse α} (settled : ∀ token, (follow token).LocalAt token .due after) :
    (current >>= follow).Local .due after := by
  intro token
  refine ⟨fun stream next => ?_, fun {_ _ stream other} shares => ?_⟩
  · obtain rfl : stream.current = token := next
    exact (settled _).ranges stream rfl
  · obtain ⟨one, two⟩ : stream.current = token ∧ other.current = token := shares.next
    rw [run_current_bind, run_current_bind, one, two]
    exact (settled token).settles shares

/-- The current token is shared still after it was read. -/
theorem read_bind {follow : Token → Parse α} (settled : ∀ token, (follow token).Local .read after) :
    (current >>= follow).Local .read after := by
  intro token
  refine ⟨fun stream next => ((settled _ token).ranges stream next), fun shares => ?_⟩
  rw [run_current_bind, run_current_bind, shares.current]
  exact (settled _ token).settles shares

theorem upcoming_bind {follow : Token → Parse α} (settled : ∀ token, (follow token).LocalAt token .read after) :
    (upcoming >>= follow).Local .read after := by
  intro token
  refine ⟨fun stream next => ?_, fun {_ _ stream other} shares => ?_⟩
  · obtain rfl : stream.upcoming = token := next
    exact (settled _).ranges stream rfl
  · obtain ⟨one, two⟩ : stream.upcoming = token ∧ other.upcoming = token := shares.next
    rw [run_upcoming_bind, run_upcoming_bind, one, two]
    exact (settled token).settles shares

theorem iterate {round : σ → Parse (Round σ α)} (each : ∀ state, (round state).Local before (Round.after before))
    (state : σ) : (iterate round state).Local before fun _ => .read := by
  intro token
  exact ⟨fun stream _ => .iterate (fun state stream => (each state).ranges stream) state,
    fun shares => .iterate (fun state _ _ _ shares => (each state).settles shares)
      (fun state stream => (each state).ranges stream) state shares⟩

theorem collect {round : Parse (Gain α)} (each : round.Local before (Gain.after before)) :
    (collect round).Local before fun _ => .read := by
  refine .iterate (fun _ => .bind each fun gain => ?_) ()
  cases gain <;> exact .pure rfl

end Local

end Mana.Parse
