import Mana.Proofs.Parse.Tracks
import Mana.Proofs.Token.Enclosed

/-! Steps on a stream and on one where a closing brace takes the place of its end. They do the same, up to the end and
there, where one complains about the end and the other about the brace. -/
namespace Mana

open TokenStream (Enclosed)

/-- The same faults, one after the other, where the end gives way to the closing brace. -/
def Enclosing (found found' : List Diagnostic) : Prop :=
  found'.map Diagnostic.fault = found.map fun diagnostic => diagnostic.fault.enclosed

theorem Enclosing.append {found found' later later' : List Diagnostic} (first : Enclosing found found')
    (second : Enclosing later later') : Enclosing (found ++ later) (found' ++ later') := by
  rw [Enclosing, List.map_append, List.map_append, first, second]

theorem Enclosing.nil : Enclosing [] [] := rfl

/-- The other step ends as the step does, with a result that is alike. A step that is done has read a token before the
end. -/
inductive Step.Encloses (beyond : TokenStream) (same : α → α → Prop) : Step α → Step α → Prop where
  | done {rest rest' : TokenStream} {found found' : List Diagnostic} (alike : same result result')
    (enclosed : Enclosed beyond rest rest') (some : 0 < rest.count) (faults : Enclosing found found') :
    Encloses beyond same ⟨.done result, rest, found⟩ ⟨.done result', rest', found'⟩
  | failed {rest rest' : TokenStream} {found found' : List Diagnostic} (enclosed : Enclosed beyond rest rest')
    (faults : Enclosing found found') : Encloses beyond same ⟨.failed, rest, found⟩ ⟨.failed, rest', found'⟩
  | struck {rest rest' : TokenStream} {found found' : List Diagnostic} :
    Encloses beyond same ⟨.struck, rest, found⟩ ⟨.struck, rest', found'⟩

namespace Step.Encloses

variable {beyond : TokenStream} {same : α → α → Prop} {step other : Step α} {found found' : List Diagnostic}

theorem since (encloses : step.Encloses beyond same other) (faults : Enclosing found found') :
    (step.since found).Encloses beyond same (other.since found') := by
  cases encloses with
  | done alike enclosed some own => exact .done alike enclosed some (faults.append own)
  | failed enclosed own => exact .failed enclosed (faults.append own)
  | struck => exact .struck

theorem andThen {same : β → β → Prop} {middle : α → α → Prop} {next next' : α → TokenStream → Step β}
    (first : step.Encloses beyond middle other)
    (second : ∀ result result' rest rest', middle result result' → Enclosed beyond rest rest' → 0 < rest.count →
      (next result rest).Encloses beyond same (next' result' rest')) :
    (step.andThen next).Encloses beyond same (other.andThen next') := by
  cases first with
  | done alike enclosed some faults => exact (second _ _ _ _ alike enclosed some).since faults
  | failed enclosed faults => exact .failed enclosed faults
  | struck => exact .struck

theorem map {same : β → β → Prop} {change change' : α → β}
    (encloses : step.Encloses beyond (fun result result' => same (change result) (change' result')) other) :
    (step.map change).Encloses beyond same (other.map change') := by
  cases encloses with
  | done alike enclosed some faults => exact .done alike enclosed some faults
  | failed enclosed faults => exact .failed enclosed faults
  | struck => exact .struck

theorem imp {weaker : α → α → Prop} (encloses : step.Encloses beyond same other)
    (implies : ∀ result result', same result result' → weaker result result') :
    step.Encloses beyond weaker other := by
  cases encloses with
  | done alike enclosed some faults => exact .done (implies _ _ alike) enclosed some faults
  | failed enclosed faults => exact .failed enclosed faults
  | struck => exact .struck

end Step.Encloses

namespace Parse

/-- With at least so many tokens ahead, the other parser does in front of the brace what the parser does alone. -/
def Encloses (beyond : TokenStream) (least : Nat) (same : α → α → Prop) (parse other : Parse α) : Prop :=
  ∀ stream stream', Enclosed beyond stream stream' → least ≤ stream.count →
    (parse.run stream).Encloses beyond same (other.run stream')

namespace Encloses

variable {beyond : TokenStream} {least : Nat} {same : α → α → Prop}

/-- What needs no token at all may have one. -/
theorem of_any {parse other : Parse α} (encloses : Encloses beyond 0 same parse other) :
    Encloses beyond 1 same parse other := fun stream stream' enclosed _ =>
  encloses stream stream' enclosed (Nat.zero_le _)

theorem pure {result result' : α} (alike : same result result') :
    Encloses beyond 1 same (pure result) (pure result') :=
  fun _ _ enclosed some => .done alike enclosed some rfl

theorem bind {first first' : Parse α} {second second' : α → Parse β} {middle : α → α → Prop} {same : β → β → Prop}
    (former : Encloses beyond least middle first first')
    (latter : ∀ result result', middle result result' → Encloses beyond 1 same (second result) (second' result')) :
    Encloses beyond least same (first >>= second) (first' >>= second') := fun stream stream' enclosed enough =>
  (former stream stream' enclosed enough).andThen fun result result' rest rest' alike enclosed some =>
    latter result result' alike rest rest' enclosed some

theorem current_bind {follow follow' : Token → Parse α}
    (each : ∀ token token', token'.kind = token.kind → token'.literal = token.literal →
      Encloses beyond 1 same (follow token) (follow' token')) :
    Encloses beyond 1 same (current >>= follow) (current >>= follow') := fun stream stream' enclosed some =>
  have ⟨kind, literal, _⟩ := enclosed.current some
  each _ _ kind literal stream stream' enclosed some

theorem advance_bind {follow follow' : Unit → Parse α} (later : Encloses beyond 0 same (follow ()) (follow' ())) :
    Encloses beyond 1 same (advance >>= follow) (advance >>= follow') := fun stream stream' enclosed some =>
  later stream.advanced stream'.advanced (enclosed.advanced some) (Nat.zero_le _)

theorem iterate {round round' : σ → Parse (Round σ α)} (alike : σ → σ → Prop)
    (each : ∀ state state', alike state state' →
      Encloses beyond 1 (Round.Alike alike same) (round state) (round' state')) {state state' : σ}
    (start : alike state state') : Encloses beyond 1 same (iterate round state) (iterate round' state') := by
  intro stream stream' enclosed some
  induction stream using TokenStream.induct generalizing state state' stream' with
  | fewer stream ih =>
    rw [run_iterate, run_iterate]
    apply (each state state' start stream stream' enclosed some).andThen
    intro decision decision' rest rest' decided later ahead
    cases decided with
    | stop results => exact .done results later ahead rfl
    | again next finish =>
      simp only [enclosed.count_lt_iff later]
      split
      · rename_i shorter
        exact .map ((ih rest shorter next rest' later ahead).imp finish)
      · exact .struck

theorem collect {round round' : Parse (Gain α)} (each : Encloses beyond 1 (Gain.Alike same) round round') :
    Encloses beyond 1 (List.Forall₂ same) (collect round) (collect round') := by
  refine .iterate (fun _ _ => True) (fun _ _ _ => .bind each fun gain gain' alike => ?_) trivial
  cases alike with
  | stop => exact .pure (.stop .nil)
  | nothing => exact .pure (.again trivial fun _ _ all => all)
  | item alike => exact .pure (.again trivial fun _ _ all => .cons alike all)

end Encloses

end Parse

end Mana
