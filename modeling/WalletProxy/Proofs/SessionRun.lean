import WalletProxy.Proofs.ProxyRun
import WalletProxy.Proofs.StagingArea
import WalletProxy.Proofs.StagingUnseen
import WalletProxy.Sim.Session

/-! Sessions are what the proxy performs: over a chain that answers at once no call meets its
deadline or another one, and the follower goes on in turns. Of the calls of a test, none but a reset
touches the store. -/
namespace WalletProxy
open Unsigned (Overflow)

namespace SimChain

variable (overflow : Overflow) (chain : SimChain)

theorem stagesIncoming (request : Request) (stages : request.stages = true) :
    (chain.step overflow request).incoming = chain.incoming := by
  cases ready : chain.isReset with
  | true =>
    rw [stepAdds ready overflow stages]
    rfl
  | false =>
    cases gated : request.needsReset with
    | true => rw [(notResetRefused ready gated).2]
    | false =>
      cases request with
      | stageBlocks blocks =>
        obtain rfl : blocks = [] := by simpa [Request.needsReset] using gated
        rfl
      | _ => contradiction

theorem stageTxsIncoming (txs : List (Nat × Bytes)) :
    (chain.stageTxs txs).2.incoming = chain.incoming := by
  induction txs generalizing chain with
  | nil => rfl
  | cons tx rest ih =>
    obtain ⟨height, bytes⟩ := tx
    have first := stagesIncoming .wraps chain (.stageTx height bytes) rfl
    unfold stageTxs
    simp only [step] at first
    cases staged : chain.stageTx height bytes with
    | mk result next =>
      rw [staged] at first
      cases result with
      | error fault => exact first
      | ok done => exact (ih next).trans first

theorem commitIncoming (height : Nat) :
    (chain.commit overflow height).2.incoming = chain.incoming := by
  unfold commit
  split
  · rfl
  · dsimp only
    split
    · rfl
    · rfl

end SimChain

namespace SimProxy

variable {ι α : Type}

theorem afterAppend (overflow : Overflow) (proxy : SimProxy) (first second : List Input) :
    proxy.after overflow (first ++ second) = (proxy.after overflow first).after overflow second :=
  List.foldl_append ..

theorem recordAppend (overflow : Overflow) (proxy : SimProxy) (first second : List Input) :
    proxy.record overflow (first ++ second) =
      proxy.record overflow first ++ (proxy.after overflow first).record overflow second := by
  induction first generalizing proxy with
  | nil => rfl
  | cons input rest ih => exact congrArg _ (ih (proxy.feed overflow input).2)

theorem performedAtOnce (deadline : Option Nat) (job : Job Store ι α) (items : List ι)
    (proxy : SimProxy) :
    Proxy.performAfter deadline job items proxy = some ⟨proxy.having job,
      (proxy.outcome job).items.reverse ++ items, .finished (proxy.outcome job).value⟩ := by
  induction job generalizing items proxy with
  | done value => rfl
  | act update next ih => exact ih proxy.store items { proxy with store := update proxy.store }
  | ask call next ih =>
    exact ih (SimChain.answer call proxy.node).1 items
      { proxy with node := (SimChain.answer call proxy.node).2 }
  | emit item next ih =>
    have given : (proxy.outcome (.emit item next)).items.reverse ++ items =
        (proxy.outcome next).items.reverse ++ (item :: items) := by
      simp [outcome, Job.run]
    rw [given]
    exact ih (item :: items) proxy

theorem performs (job : Job Store Empty α) (proxy : SimProxy) :
    Proxy.perform job proxy =
      (Proxy.settle Proxy.patience (proxy.did job).2).map ((proxy.did job).1, ·) := by
  simp only [Proxy.perform, performedAtOnce, Option.bind_eq_bind, Option.bind_some]
  exact Option.map_eq_bind.symm

theorem receives (stream : Wallet.Stream ι) (proxy : SimProxy) :
    Proxy.receive stream proxy =
      (Proxy.settle Proxy.patience (proxy.received stream).2).map
        ((proxy.received stream).1, ·) := by
  simp only [Proxy.receive, performedAtOnce, Option.bind_eq_bind, Option.bind_some,
    List.append_nil, List.reverse_reverse]
  exact Option.map_eq_bind.symm

theorem streams (handler : Wallet.Handler Empty (Wallet.Stream ι)) (proxy : SimProxy) :
    Proxy.answerStream handler proxy =
      (Proxy.settle Proxy.patience (proxy.streamed handler).2).map
        ((proxy.streamed handler).1, ·) := by
  simp only [Proxy.answerStream, streamed, called, did, performedAtOnce, Option.bind_eq_bind,
    Option.bind_some]
  cases (proxy.outcome handler.run).value with
  | error status => exact Option.map_eq_bind.symm
  | ok stream =>
    dsimp only
    rw [receives, Option.bind_map]
    exact Option.map_eq_bind.symm

theorem settleTurns (overflow : Overflow) {rounds : Nat} {proxy settled : SimProxy}
    (done : Proxy.settle rounds proxy = some settled) :
    ∃ turns, settled = proxy.after overflow (List.replicate turns .turn) := by
  induction rounds generalizing proxy with
  | zero =>
    unfold Proxy.settle at done
    refine ⟨0, ?_⟩
    split at done
    · exact (Option.some.inj done).symm
    · split at done
      · contradiction
      · exact (Option.some.inj done).symm
  | succ rounds ih =>
    unfold Proxy.settle at done
    split at done
    · exact ⟨0, (Option.some.inj done).symm⟩
    · rename_i activity following
      split at done
      · rename_i due
        obtain ⟨turns, same⟩ := ih done
        refine ⟨turns + 1, ?_⟩
        have first : (proxy.feed overflow .turn).2 = Proxy.follow activity.job proxy := by
          show proxy.turn = _
          simp only [turn, following, due, if_true]
        rw [List.replicate_succ]
        show settled = (proxy.feed overflow .turn).2.after overflow _
        rw [first, same]
      · exact ⟨0, (Option.some.inj done).symm⟩

/-- All that a call of a test changes that is not a reset and does not deal with what has come in:
the chain, and whether the follower runs. -/
structure Controlled (proxy later : SimProxy) : Prop where
  incoming : later.node.incoming = proxy.node.incoming
  store : later.store = proxy.store
  poll : later.poll = proxy.poll
  follower : later.follower = proxy.follower ∨ later.follower = none ∨
    later.follower = some .ready

theorem controlledNothing (proxy : SimProxy) : Controlled proxy proxy :=
  ⟨rfl, rfl, rfl, Or.inl rfl⟩

theorem controlledTrans {first second third : SimProxy} (start : Controlled first second)
    (later : Controlled second third) : Controlled first third := by
  refine ⟨later.incoming.trans start.incoming, later.store.trans start.store,
    later.poll.trans start.poll, ?_⟩
  rcases later.follower with same | moved
  · rw [same]
    exact start.follower
  · exact Or.inr moved

section
variable (proxy : SimProxy)

theorem onChainControlled {update : SimChain → Except SimError α × SimChain}
    (kept : (update proxy.node).2.incoming = proxy.node.incoming) :
    Controlled proxy (proxy.onChain update).2 := ⟨kept, rfl, rfl, Or.inl rfl⟩

theorem stageTextsControlled (texts : List String) :
    Controlled proxy (proxy.stageTexts texts).2 := by
  induction texts generalizing proxy with
  | nil => exact controlledNothing proxy
  | cons text rest ih =>
    unfold stageTexts
    cases Hex.decode (String.ofList (Text.trim text.toList)) with
    | error fault => exact controlledNothing proxy
    | ok bytes =>
      dsimp only
      have first : Controlled proxy (proxy.onChain (·.stageBlock bytes)).2 :=
        onChainControlled proxy (SimChain.stagesIncoming .wraps proxy.node (.stageBlock bytes) rfl)
      cases staged : proxy.onChain (·.stageBlock bytes) with
      | mk result next =>
        rw [staged] at first
        cases result with
        | error status => exact first
        | ok done => exact controlledTrans first (ih next)

theorem withFileIncoming (chain : SimChain) (fetched : Except String String)
    {stage : SimChain → List Bytes → Except SimError Unit × SimChain}
    (kept : ∀ contents, (stage chain contents).2.incoming = chain.incoming) :
    (withFile fetched stage chain).2.incoming = chain.incoming := by
  unfold withFile
  split
  · rfl
  · split
    · rfl
    · exact kept _

theorem onChainControlled? {update : SimChain → Option (Except SimError α) × SimChain}
    (kept : (update proxy.node).2.incoming = proxy.node.incoming) :
    Controlled proxy (proxy.onChain? update).2 := ⟨kept, rfl, rfl, Or.inl rfl⟩

theorem atHeightControlled (height : Int) (refused : Status → α) {next : Nat → α × SimProxy}
    (controlled : ∀ height, Controlled proxy (next height).2) :
    Controlled proxy (proxy.atHeight height refused next).2 := by
  unfold atHeight
  split
  · exact controlledNothing proxy
  · exact controlled _

theorem applyStagedControlled (overflow : Overflow) (height : Int) :
    Controlled proxy (proxy.applyStaged overflow height).2 := by
  refine atHeightControlled proxy height _ fun height => ?_
  have controlled : Controlled proxy (proxy.onChain? (·.commit overflow height)).2 :=
    onChainControlled? proxy (SimChain.commitIncoming overflow proxy.node height)
  split
  · rename_i next committed
    rw [committed] at controlled
    show Controlled proxy (if _ then _ else _)
    split
    · exact ⟨controlled.incoming, controlled.store, controlled.poll, Or.inr (Or.inl rfl)⟩
    · exact ⟨controlled.incoming, controlled.store, controlled.poll, Or.inr (Or.inr rfl)⟩
  · exact controlled

end

def Input.controls : Input → Bool
  | .stageTexts _ | .stageFile _ | .stageFiller _ _ _ | .stageTxs _ | .stageTxFile _ _
  | .applyStaged _ => true
  | _ => false

theorem feedControlled (overflow : Overflow) (proxy : SimProxy) {input : Input}
    (controls : input.controls = true) : Controlled proxy (proxy.feed overflow input).2 := by
  cases input with
  | stageTexts texts => exact stageTextsControlled proxy texts
  | stageFile fetched =>
    exact onChainControlled proxy (withFileIncoming proxy.node fetched fun blocks =>
      SimChain.stagesIncoming overflow proxy.node (.stageBlocks blocks) rfl)
  | stageFiller height nonce count =>
    exact atHeightControlled proxy height _ fun start =>
      atHeightControlled proxy count _ fun size => onChainControlled? proxy
        (SimChain.stagesIncoming overflow proxy.node (.stageFiller start nonce size) rfl)
  | stageTxs txs =>
    show Controlled proxy (proxy.onChain (·.stageTxs txs)).2
    exact onChainControlled proxy (SimChain.stageTxsIncoming proxy.node txs)
  | stageTxFile height fetched =>
    exact atHeightControlled proxy height _ fun height =>
      onChainControlled proxy (withFileIncoming proxy.node fetched fun contents =>
        SimChain.stageTxsIncoming proxy.node _)
  | applyStaged height => exact applyStagedControlled proxy overflow height
  | _ => contradiction

end SimProxy

end WalletProxy
