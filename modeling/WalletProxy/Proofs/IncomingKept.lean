import Mathlib.Data.List.DropRight
import WalletProxy.Proofs.HandlerRun
import WalletProxy.Proofs.SessionSteps

/-! Transactions that come in are neither lost nor doubled. They come from wallets, which send them
as text through the node, and from the test itself; only a granted reset and a call to clear them
take them away, and then all of them. -/
namespace WalletProxy
open Unsigned (Overflow)

namespace SimChain

theorem answerSent (data : Bytes) (chain : SimChain) :
    answer (Wallet.sendCall data) chain = (.ok .null, chain.pushIncoming data) := by
  have first : firstText? [.text (Hex.encode data)] = some (Hex.encode data) := rfl
  have sends : answer (Wallet.sendCall data) chain =
      chain.sendRawTransaction [.text (Hex.encode data)] := if_pos rfl
  simp only [sends, sendRawTransaction, first, Hex.decodeEncoded]

theorem recordIncomingKeeps (chain : SimChain) (bytes : Bytes) :
    (chain.recordIncoming bytes).2.incoming = chain.incoming ++
      if (chain.recordIncoming bytes).1.isOk then [bytes] else [] := by
  unfold recordIncoming
  split
  · exact (List.append_nil _).symm
  · split
    · exact (List.append_nil _).symm
    · rename_i tx read
      obtain ⟨same, _⟩ := BlockTx.ofBytesOk.mp read
      rw [same]
      rfl

end SimChain

namespace SimProxy

def forgets : Input × Output → Bool
  | (.reset _ _ _, .control (.ok ())) => true
  | (.clearIncoming, _) => true
  | _ => false

/-- What comes in with an entry of the record: what a wallet sends, unless it is empty, and what a
test puts in, if it is taken. -/
def submitted : Input × Output → List Bytes
  | (.wallet (.send tx), _) => if tx.data.isEmpty then [] else [tx.data]
  | (.recordIncoming bytes, .recorded (.ok _)) => [bytes]
  | _ => []

theorem nothingIn {proxy later : SimProxy} (same : later.node = proxy.node) :
    later.node.incoming = proxy.node.incoming ++ [] := by
  rw [same, List.append_nil]

theorem sendIncoming (proxy : SimProxy) (tx : Wallet.RawTx) :
    (proxy.serve (.send tx)).2.node.incoming =
      proxy.node.incoming ++ if tx.data.isEmpty then [] else [tx.data] := by
  show (Job.run SimChain.answer (Wallet.sendTransaction tx).run proxy.store
    proxy.node).node.incoming = _
  unfold Wallet.sendTransaction
  cases empty : tx.data.isEmpty with
  | true => exact (List.append_nil _).symm
  | false =>
    have checked : Job.run SimChain.answer (Wallet.Handler.ensure (ι := Empty) (!false)
        (Wallet.Handler.invalid "bad Transaction or Data")).run proxy.store proxy.node =
      ⟨Except.ok (), [], proxy.store, proxy.node⟩ := rfl
    rw [Wallet.Handler.thenRun _ checked]
    show (SimChain.answer (Wallet.sendCall tx.data) proxy.node).2.incoming = _
    rw [SimChain.answerSent]
    rfl

theorem readingNode {request : Wallet.Request} (reading : mayAsk request = Call.reads)
    (proxy : SimProxy) : (proxy.serve request).2.node = proxy.node := by
  refine (relativeServe request).node proxy ?_
  rw [reading]
  exact SimChain.readsKeep proxy.node

theorem serveIncoming (proxy : SimProxy) (request : Wallet.Request) (output : Output) :
    (proxy.serve request).2.node.incoming =
      proxy.node.incoming ++ submitted (.wallet request, output) := by
  cases request with
  | send tx => exact sendIncoming proxy tx
  | _ =>
    refine nothingIn (readingNode ?_ proxy)
    rfl

theorem turnNode {poll interval : Nat} {proxy : SimProxy}
    (configured : Configured poll interval proxy) : proxy.turn.node = proxy.node := by
  rcases turnCases configured with same | ⟨due, pace, turned⟩
  · rw [same]
  · rw [turned]
    exact Job.sameNode SimChain.answer Follower.turnRelative (SimChain.readsKeep proxy.node)
      proxy.store

theorem controlsNeither {input : Input} (controls : input.controls = true) (output : Output) :
    forgets (input, output) = false ∧ submitted (input, output) = [] := by
  cases input with
  | reset activation branch name => contradiction
  | clearIncoming => contradiction
  | recordIncoming bytes => contradiction
  | wallet request => contradiction
  | _ => exact ⟨rfl, rfl⟩

theorem feedIncoming {poll interval : Nat} {proxy : SimProxy}
    (configured : Configured poll interval proxy) (overflow : Overflow) (input : Input) :
    let entry := (input, (proxy.feed overflow input).1)
    (proxy.feed overflow input).2.node.incoming =
      if forgets entry then [] else proxy.node.incoming ++ submitted entry := by
  intro entry
  cases controls : input.controls with
  | true =>
    obtain ⟨keeps, nothing⟩ := controlsNeither controls (proxy.feed overflow input).1
    rw [keeps, nothing, List.append_nil]
    exact (feedControlled overflow proxy controls).incoming
  | false =>
    cases input with
    | reset activation branch name =>
      by_cases accepts : Accepts activation branch name
      · simp only [entry, feed, resetGranted accepts]
        rfl
      · obtain ⟨status, refused⟩ := resetRefused accepts proxy
        simp only [entry, feed, refused]
        exact nothingIn rfl
    | incoming =>
      exact nothingIn ((relativeReceived (incomingRelative proxy)).node proxy
        (SimChain.readsKeep proxy.node))
    | clearIncoming => rfl
    | recordIncoming bytes =>
      have kept := SimChain.recordIncomingKeeps proxy.node bytes
      cases recorded : proxy.node.recordIncoming bytes with
      | mk result node =>
        rw [recorded] at kept
        simp only [entry, feed, recordIncoming, recorded]
        cases result with
        | error fault => exact kept
        | ok id => exact kept
    | wallet request => exact serveIncoming proxy request _
    | turn => exact nothingIn (turnNode configured)
    | pass time => exact nothingIn rfl
    | _ => contradiction

theorem afterIncoming {poll interval : Nat} {proxy : SimProxy}
    (configured : Configured poll interval proxy) (none : proxy.node.incoming = [])
    (overflow : Overflow) (inputs : List Input) :
    (proxy.after overflow inputs).node.incoming =
      ((proxy.record overflow inputs).rtakeWhile fun entry => !forgets entry).flatMap submitted := by
  induction inputs using List.reverseRecOn with
  | nil => exact none
  | append_singleton inputs input ih =>
    have last := feedIncoming (afterConfigured configured overflow inputs) overflow input
    rw [afterAppend, recordAppend]
    show ((proxy.after overflow inputs).feed overflow input).2.node.incoming =
      ((proxy.record overflow inputs ++
        [(input, ((proxy.after overflow inputs).feed overflow input).1)]).rtakeWhile
          fun entry => !forgets entry).flatMap submitted
    rw [last, List.rtakeWhile_concat]
    cases forgets (input, ((proxy.after overflow inputs).feed overflow input).1) with
    | true => rfl
    | false => simp [ih]

theorem incomingGives (overflow : Overflow) (proxy : SimProxy) :
    (proxy.feed overflow .incoming).1 = .incoming ⟨proxy.node.incoming.map (⟨·, 0⟩), none⟩ := by
  simp only [feed, received, outcome, incoming, Wallet.Stream.ofList,
    Wallet.Stream.emitAllRun, Prod.map_apply]

theorem incomingKept (overflow : Overflow) (first poll interval : Nat) (inputs : List Input) :
    let proxy := fresh first poll interval
    ((proxy.after overflow inputs).feed overflow .incoming).1 = .incoming
      ⟨(((proxy.record overflow inputs).rtakeWhile fun entry => !forgets entry).flatMap
        submitted).map (⟨·, 0⟩), none⟩ := by
  intro proxy
  rw [← afterIncoming (freshConfigured first poll interval) rfl overflow inputs]
  exact incomingGives overflow (proxy.after overflow inputs)

end SimProxy

end WalletProxy
