import Mathlib.Data.Nat.GCD.Basic
import WalletProxy.CommandLine
import WalletProxy.Proofs.Results
import WalletProxy.Proofs.TextRoundTrip

/-! The time limit of a simulated chain. Every number of minutes up to 64 bits is accepted on the
command line, while the limit is kept in seconds, of 64 bits as well. As long as the seconds fit
the limit is the one that was told. Past that the program ends, or the limit is what is left of it,
which can be less than the least one. -/
namespace WalletProxy.CommandLine
open Unsigned (Overflow greatest64)

namespace Given

def Accepted (given : Given) : Prop := ∀ entry ∈ given.values, entry.1.accepts entry.2 = true

theorem nothingAccepted : nothing.Accepted := List.forall_mem_nil _

variable {given after : Given}

theorem putAccepted (accepted : given.Accepted) {setting : Setting} {text : String}
    (ok : given.put setting text = .ok after) : after.Accepted := by
  unfold put at ok
  split at ok
  · contradiction
  · split at ok
    · contradiction
    · rename_i own
      cases ok
      have good : setting.accepts text = true := by simpa using own
      exact List.forall_mem_append.mpr ⟨accepted, List.forall_mem_singleton.mpr good⟩

theorem settleAccepted (accepted : given.Accepted) (ok : given.settle = .ok after) :
    after.Accepted := by
  unfold settle at ok
  split at ok
  · cases ok
    exact accepted
  · contradiction
  · have unpending : { given with pending := none }.Accepted := accepted
    exact putAccepted unpending ok

theorem namedAccepted (accepted : given.Accepted) {name : String} {attached : Option String}
    (ok : given.named name attached = .ok after) : after.Accepted := by
  unfold named at ok
  split at ok
  · contradiction
  · obtain ⟨settled, first, ok⟩ := Results.bindOk.mp ok
    exact putAccepted (settleAccepted accepted first) ok
  · obtain ⟨settled, first, ok⟩ := Results.bindOk.mp ok
    cases ok
    have kept : settled.Accepted := settleAccepted accepted first
    exact kept
  · contradiction
  · obtain ⟨settled, first, ok⟩ := Results.bindOk.mp ok
    split at ok
    · contradiction
    · cases ok
      have kept : settled.Accepted := settleAccepted accepted first
      exact kept
  · obtain ⟨_, _, ok⟩ := Results.bindOk.mp ok
    contradiction
  · obtain ⟨_, _, ok⟩ := Results.bindOk.mp ok
    contradiction

theorem takeAccepted (accepted : given.Accepted) {argument : String}
    (ok : given.take argument = .ok after) : after.Accepted := by
  unfold take at ok
  split at ok
  · exact namedAccepted accepted ok
  · unfold lettered at ok
    split at ok
    · exact namedAccepted accepted ok
    · split at ok
      · exact namedAccepted accepted ok
      · contradiction
  · unfold bare at ok
    split at ok
    · cases ok
      exact accepted
    · contradiction

theorem takeAllAccepted (accepted : given.Accepted) {arguments : List String}
    (ok : given.takeAll arguments = .ok after) : after.Accepted := by
  induction arguments generalizing given with
  | nil => exact settleAccepted accepted ok
  | cons argument rest ih =>
    unfold takeAll at ok
    split at ok
    · contradiction
    · split at ok
      · exact settleAccepted accepted ok
      · contradiction
    · rename_i same
      cases same
      obtain ⟨next, first, ok⟩ := Results.bindOk.mp ok
      exact ih (takeAccepted accepted first) ok

theorem limitRead (accepted : given.Accepted) {text : String}
    (told : given.value? .simLimit = some text) :
    ∃ minutes ≤ greatest64, Unsigned.read? greatest64 text = some minutes := by
  obtain ⟨⟨setting, own⟩, found, rfl⟩ := Option.map_eq_some_iff.mp told
  have good := accepted _ (List.mem_of_find?_eq_some found)
  have named : setting = .simLimit := by simpa using List.find?_some found
  subst named
  obtain ⟨minutes, read⟩ := Option.isSome_iff_exists.mp good
  exact ⟨minutes, Unsigned.readBounded read, read⟩

theorem takeBare {text : String} (plain : text.toList.head? ≠ some '-') :
    given.take text = given.bare text := by
  unfold take
  split
  · rename_i same
    exact absurd (by rw [same]; rfl) plain
  · rename_i same
    exact absurd (by rw [same]; rfl) plain
  · rfl

theorem takeAllNext {argument : String} (apart : argument ≠ "--") (rest : List String) :
    given.takeAll (argument :: rest) = given.take argument >>= fun next => next.takeAll rest := by
  rw [takeAll]
  intro same
  exact absurd same apart

theorem decimalPlain (number : Nat) : (toString number).toList.head? ≠ some '-' := by
  intro first
  have member := List.mem_of_head? first
  rw [Nat.toString_eq_repr, Nat.toList_repr] at member
  exact absurd (Nat.isDigit_of_mem_toDigits (by decide) (by decide) member) (by decide)

def limitLine (minutes : Nat) : List String := ["--darkside-timeout", toString minutes]

def withMinutes (minutes : Nat) : Given :=
  { nothing with values := [(.simLimit, toString minutes)] }

theorem limitLineTaken {minutes : Nat} (bounded : minutes ≤ greatest64) :
    nothing.takeAll (limitLine minutes) = .ok (withMinutes minutes) := by
  let waiting (text : Option String) : Given :=
    { nothing with pending := some (.simLimit, text) }
  have named : nothing.take "--darkside-timeout" = .ok (waiting none) := by rfl
  have followed : (waiting none).take (toString minutes) =
      .ok (waiting (some (toString minutes))) := takeBare (decimalPlain minutes)
  have apart : toString minutes ≠ "--" := by
    intro same
    exact decimalPlain minutes (by rw [same]; decide)
  have own : Setting.accepts .simLimit (toString minutes) = true :=
    Option.isSome_iff_exists.mpr ⟨minutes, Unsigned.readDecimal bounded⟩
  have settled : (waiting (some (toString minutes))).settle = .ok (withMinutes minutes) := by
    simp only [waiting, settle, put, own]
    rfl
  rw [limitLine, takeAllNext (by decide), named]
  show (waiting none).takeAll [toString minutes] = _
  rw [takeAllNext apart, followed]
  exact settled

theorem minutesTold {minutes : Nat} (bounded : minutes ≤ greatest64) :
    (withMinutes minutes).number? .simLimit = some minutes := Unsigned.readDecimal bounded

end Given

namespace Config

/-- What a configuration can come to for it to be what was asked for: a reason why there is none,
or one that has just the limit that was told, a minute or more. -/
inductive AsTold (minutes : Nat) : Option (Except Fault Config) → Prop where
  | refused (fault : Fault) : AsTold minutes (some (.error fault))
  | kept {config : Config} (limit : config.simLimit = minutes * Duration.minute)
      (least : Duration.minute ≤ config.simLimit) : AsTold minutes (some (.ok config))

inductive Outcome (overflow : Overflow) (given : Given) (minutes : Nat) :
    Option (Except Fault Config) → Prop where
  | nothing (no : minutes = 0) : Outcome overflow given minutes (some (.error .limitTooShort))
  | fits (any : minutes ≠ 0) (small : 60 * minutes ≤ greatest64) :
      Outcome overflow given minutes (some (.ok (withLimit given (minutes * Duration.minute))))
  | ended (built : overflow = .ends) (beyond : greatest64 < 60 * minutes) :
      Outcome overflow given minutes none
  | turned (built : overflow = .wraps) (beyond : greatest64 < 60 * minutes)
      (turns : 2 ^ 62 ∣ minutes) : Outcome overflow given minutes (some (.error .limitTooShort))
  | wrapped (built : overflow = .wraps) (beyond : greatest64 < 60 * minutes)
      (turns : ¬ 2 ^ 62 ∣ minutes) : Outcome overflow given minutes
        (some (.ok (withLimit given (60 * minutes % UInt64.size * Duration.second))))

section Limit

variable {overflow : Overflow} {given : Given} {minutes : Nat}

theorem wholeTurns : 60 * minutes % UInt64.size = 0 ↔ 2 ^ 62 ∣ minutes := by
  have split : 60 * minutes = 2 ^ 2 * (15 * minutes) := by omega
  have apart : Nat.Coprime (2 ^ 62) 15 := by decide
  rw [← Nat.dvd_iff_mod_eq_zero, split, show UInt64.size = 2 ^ 2 * 2 ^ 62 from rfl,
    Nat.mul_dvd_mul_iff_left (by decide), apart.dvd_mul_left]

theorem minutesSpan : 60 * minutes * Duration.second = minutes * Duration.minute := by
  rw [Duration.minute, Nat.mul_comm 60, Nat.mul_assoc]

theorem ofGivenTold (told : given.number? .simLimit = some minutes) :
    ofGiven overflow given = (overflow.in64 (60 * minutes)).map fun seconds =>
      if seconds = 0 then .error .limitTooShort
      else .ok (withLimit given (seconds * Duration.second)) := by
  unfold ofGiven
  rw [told]
  show Option.map _ (limitOf overflow minutes) = _
  rw [limitOf, Option.map_map]
  congr 1
  funext seconds
  rw [Function.comp_apply]
  split <;> rfl

theorem ofGivenOutcome (told : given.number? .simLimit = some minutes) :
    Outcome overflow given minutes (ofGiven overflow given) := by
  rw [ofGivenTold told]
  unfold Overflow.in64
  by_cases small : 60 * minutes ≤ greatest64
  · rw [if_pos small, Option.map_some]
    by_cases no : minutes = 0
    · rw [if_pos (by omega)]
      exact .nothing no
    · rw [if_neg (by omega), minutesSpan]
      exact .fits no small
  · rw [if_neg small]
    have beyond := Nat.not_le.mp small
    cases overflow with
    | ends => exact .ended rfl beyond
    | wraps =>
      rw [Option.map_some]
      by_cases turns : 2 ^ 62 ∣ minutes
      · rw [if_pos (wholeTurns.mpr turns)]
        exact .turned rfl beyond turns
      · rw [if_neg (mt wholeTurns.mp turns)]
        exact .wrapped rfl beyond turns

variable {result : Option (Except Fault Config)} (outcome : Outcome overflow given minutes result)

theorem wrappedShorter (beyond : greatest64 < 60 * minutes) :
    60 * minutes % UInt64.size * Duration.second < minutes * Duration.minute := by
  have top : greatest64 + 1 = UInt64.size := by decide
  have small : 60 * minutes % UInt64.size < UInt64.size := Nat.mod_lt _ (by decide)
  rw [← minutesSpan]
  exact Nat.mul_lt_mul_of_pos_right (by omega) (by decide)

theorem turnsBeyond (turns : 2 ^ 62 ∣ minutes) (any : minutes ≠ 0) :
    greatest64 < 60 * minutes := by
  have top : greatest64 + 1 = 4 * 2 ^ 62 := by decide
  have least := Nat.le_of_dvd (Nat.pos_of_ne_zero any) turns
  omega

include outcome

theorem asToldIff : AsTold minutes result ↔
    60 * minutes ≤ greatest64 ∨ overflow = .wraps ∧ 2 ^ 62 ∣ minutes := by
  cases outcome with
  | nothing no => exact iff_of_true (.refused _) (.inl (by omega))
  | fits any small =>
    exact iff_of_true (.kept rfl (Nat.le_mul_of_pos_left _ (Nat.pos_of_ne_zero any))) (.inl small)
  | ended built beyond =>
    refine iff_of_false nofun ?_
    rintro (small | ⟨other, _⟩)
    · exact absurd small (Nat.not_le.mpr beyond)
    · cases built.symm.trans other
  | turned built beyond turns => exact iff_of_true (.refused _) (.inr ⟨built, turns⟩)
  | wrapped built beyond turns =>
    refine iff_of_false ?_ ?_
    · rintro (_ | ⟨limit, least⟩)
      exact absurd limit (Nat.ne_of_lt (wrappedShorter beyond))
    · rintro (small | ⟨_, whole⟩)
      · exact absurd small (Nat.not_le.mpr beyond)
      · exact turns whole

theorem refusedIff : (∃ fault, result = some (.error fault)) ↔
    minutes = 0 ∨ overflow = .wraps ∧ 2 ^ 62 ∣ minutes := by
  cases outcome with
  | nothing no => exact iff_of_true ⟨_, rfl⟩ (.inl no)
  | fits any small =>
    refine iff_of_false nofun ?_
    rintro (no | ⟨_, turns⟩)
    · exact any no
    · exact absurd small (Nat.not_le.mpr (turnsBeyond turns any))
  | ended built beyond =>
    refine iff_of_false nofun ?_
    rintro (no | ⟨other, _⟩)
    · omega
    · cases built.symm.trans other
  | turned built beyond turns => exact iff_of_true ⟨_, rfl⟩ (.inr ⟨built, turns⟩)
  | wrapped built beyond turns =>
    refine iff_of_false nofun ?_
    rintro (no | ⟨_, whole⟩)
    · omega
    · exact turns whole

theorem endedIff : result = none ↔ overflow = .ends ∧ greatest64 < 60 * minutes := by
  cases outcome with
  | nothing no => exact iff_of_false nofun (by omega)
  | fits any small => exact iff_of_false nofun fun ended => absurd small (Nat.not_le.mpr ended.2)
  | ended built beyond => exact iff_of_true rfl ⟨built, beyond⟩
  | turned built beyond turns =>
    exact iff_of_false nofun fun ended => by cases built.symm.trans ended.1
  | wrapped built beyond turns =>
    exact iff_of_false nofun fun ended => by cases built.symm.trans ended.1

theorem limitLeft {config : Config} (filled : result = some (.ok config)) :
    config.simLimit = 60 * minutes % UInt64.size * Duration.second := by
  cases outcome with
  | nothing no => cases filled
  | fits any small =>
    cases filled
    have bounded : 60 * minutes < UInt64.size := Nat.lt_of_le_of_lt small (by decide)
    rw [Nat.mod_eq_of_lt bounded, minutesSpan]
    rfl
  | ended built beyond => cases filled
  | turned built beyond turns => cases filled
  | wrapped built beyond turns =>
    cases filled
    rfl

theorem limitFits (small : 60 * minutes ≤ greatest64) {config : Config}
    (filled : result = some (.ok config)) : config.simLimit = minutes * Duration.minute := by
  have bounded : 60 * minutes < UInt64.size := Nat.lt_of_le_of_lt small (by decide)
  rw [limitLeft outcome filled, Nat.mod_eq_of_lt bounded, minutesSpan]

end Limit

theorem limitAsTold (overflow : Overflow) {arguments : List String} {given : Given} {text : String}
    (accepted : Given.nothing.takeAll arguments = .ok given)
    (told : given.value? .simLimit = some text) :
    ∃ minutes ≤ greatest64, Unsigned.read? greatest64 text = some minutes ∧
      (AsTold minutes (ofGiven overflow given) ↔
        60 * minutes ≤ greatest64 ∨ overflow = .wraps ∧ 2 ^ 62 ∣ minutes) ∧
      ((∃ fault, ofGiven overflow given = some (.error fault)) ↔
        minutes = 0 ∨ overflow = .wraps ∧ 2 ^ 62 ∣ minutes) ∧
      (ofGiven overflow given = none ↔ overflow = .ends ∧ greatest64 < 60 * minutes) ∧
      ∀ config, ofGiven overflow given = some (.ok config) →
        config.simLimit = 60 * minutes % UInt64.size * Duration.second ∧
        (60 * minutes ≤ greatest64 → ∀ less ≤ minutes, ∀ other shorter,
          other.number? .simLimit = some less → ofGiven overflow other = some (.ok shorter) →
          shorter.simLimit ≤ config.simLimit) := by
  have sound : given.Accepted := Given.takeAllAccepted Given.nothingAccepted accepted
  obtain ⟨minutes, bounded, read⟩ := Given.limitRead sound told
  have number : given.number? .simLimit = some minutes := by
    rw [Given.number?, told]
    exact read
  have outcome : Outcome overflow given minutes (ofGiven overflow given) := ofGivenOutcome number
  refine ⟨minutes, bounded, read, asToldIff outcome, refusedIff outcome, endedIff outcome,
    fun config filled => ⟨limitLeft outcome filled, ?_⟩⟩
  intro small less fewer other shorter otherTold otherFilled
  have lessSmall : 60 * less ≤ greatest64 := Nat.le_trans (Nat.mul_le_mul_left 60 fewer) small
  rw [limitFits outcome small filled, limitFits (ofGivenOutcome otherTold) lessSmall otherFilled]
  exact Nat.mul_le_mul_right _ fewer

theorem fiveMinutesKept :
    Given.nothing.takeAll (Given.limitLine 5) = .ok (Given.withMinutes 5) ∧
      (Given.withMinutes 5).value? .simLimit = some "5" ∧
      ∃ config, ofGiven .ends (Given.withMinutes 5) = some (.ok config) ∧
        config.simLimit = 300 * Duration.second := by
  have accepted := Given.limitLineTaken (show 5 ≤ greatest64 by decide)
  have told : (Given.withMinutes 5).value? .simLimit = some "5" := by rfl
  refine ⟨accepted, told, ?_⟩
  obtain ⟨minutes, _, read, kept, refused, _⟩ := limitAsTold .ends accepted told
  have five : minutes = 5 := (Option.some.inj read).symm
  subst five
  have granted : ¬ ∃ fault, ofGiven .ends (Given.withMinutes 5) = some (.error fault) :=
    mt refused.mp (by decide)
  have asTold := kept.mpr (.inl (by decide))
  generalize ofGiven .ends (Given.withMinutes 5) = filled at asTold granted
  cases asTold with
  | refused fault => exact absurd ⟨fault, rfl⟩ granted
  | kept limit least => exact ⟨_, rfl, limit⟩

theorem longLimitLost :
    let minutes := 307445734561825861
    let given := Given.withMinutes minutes
    Given.nothing.takeAll (Given.limitLine minutes) = .ok given ∧
      given.number? .simLimit = some minutes ∧
      (∀ overflow, ¬ AsTold minutes (ofGiven overflow given)) ∧ ofGiven .ends given = none ∧
      ∃ config, ofGiven .wraps given = some (.ok config) ∧
        config.simLimit = 44 * Duration.second := by
  intro minutes given
  have bounded : minutes ≤ greatest64 := by decide
  have beyond : greatest64 < 60 * minutes := by decide
  have told : given.number? .simLimit = some minutes := Given.minutesTold bounded
  have left : Overflow.wraps.in64 (60 * minutes) = some 44 := by decide
  refine ⟨Given.limitLineTaken bounded, told, fun overflow kept => ?_,
    (endedIff (ofGivenOutcome told)).mpr ⟨rfl, beyond⟩, withLimit given (44 * Duration.second),
    ?_, rfl⟩
  · rcases (asToldIff (ofGivenOutcome told)).mp kept with small | ⟨_, turns⟩
    · exact absurd small (Nat.not_le.mpr beyond)
    · exact absurd turns (by decide)
  · rw [ofGivenTold told, left]
    rfl

end Config

end WalletProxy.CommandLine
