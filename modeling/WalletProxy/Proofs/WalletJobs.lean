import WalletProxy.Proofs.RelativeJobs

/-! The work of the proxy, the answers to wallets and the turns of the follower alike, minds the
clock no further than refreshes do. All but one of the answers only read from the node. -/
namespace WalletProxy

def Call.reads (call : Call) : Prop := call.method ≠ "sendrawtransaction"

theorem SimChain.readsKeep (chain : SimChain) (call : Call) (reads : call.reads) :
    (answer call chain).2 = chain := by
  unfold answer
  rw [if_neg reads]

section
variable {ι α β κ : Type} {asks : Call → Prop} {fine : α → Prop}

namespace Wallet.Handler

def Relative (asks : Call → Prop) (fine : α → Prop) (handler : Handler ι α) : Prop :=
  Job.Relative asks (fun result => ∀ value, result = .ok value → fine value) handler.run

theorem relativePure {value : α} (ok : fine value) :
    Relative asks fine (pure value : Handler ι α) := fun _ same => Except.ok.inj same ▸ ok

theorem relativeThrow (status : Status) : Relative asks fine (throw status : Handler ι α) := nofun

theorem relativeThen {handler : Handler ι α} {next : α → Handler ι β} {last : β → Prop}
    (first : Relative asks fine handler)
    (onward : ∀ value, fine value → Relative asks last (next value)) :
    Relative asks last (handler >>= next) :=
  Job.relativeBind first fun result ok => match result with
    | .ok value => onward value (ok value rfl)
    | .error _ => nofun

theorem relativeEnsure (condition : Bool) (status : Status) :
    Relative asks (fun _ => True) (ensure (ι := ι) condition status) := by
  unfold ensure
  split
  · exact relativePure trivial
  · exact relativeThrow status

theorem relativeOfExcept (fault : ε → Status) (result : Except ε α) :
    Relative asks (fun _ => True) (ofExcept (ι := ι) fault result) := by
  cases result with
  | ok value => exact relativePure trivial
  | error error => exact relativeThrow (fault error)

theorem relativeRequired (value : Option α) (status : Status) :
    Relative asks (fun _ => True) (required (ι := ι) value status) := relativeOfExcept id _

theorem relativeNodeHex (text : String) :
    Relative asks (fun _ => True) (nodeHex (ι := ι) text) := relativeOfExcept _ _

theorem relativeLook {view : Store → α}
    (same : ∀ store delay, view (store.later delay) = view store) :
    Relative asks (fun _ => True) (look (ι := ι) view) := fun store =>
  ⟨⟨rfl, fun delay => ⟨rfl, congrArg (Job.done ∘ Except.ok) (same store delay)⟩⟩,
    fun _ _ => trivial⟩

theorem relativeOfJob (fault : ε → Status) {job : Job Store ι (Except ε α)}
    (relative : job.Relative asks fun _ => True) :
    Relative asks (fun _ => True) (ofJob fault job) :=
  Job.relativeBind relative fun _ _ _ _ => trivial

theorem relativeRequest {call : Call} (asked : asks call) (read? : Json → Option α) :
    Relative asks (fun _ => True) (request (ι := ι) call read?) :=
  ⟨asked, fun _ _ _ => trivial⟩

theorem relativeInfo (asked : asks Node.infoCall) :
    Relative asks (fun _ => True) (chainInfo (ι := ι)) :=
  relativeOfJob _ ⟨asked, fun _ => trivial⟩

theorem relativeFetch (height : Nat) (asked : asks (Node.blockCall height)) :
    Relative asks (fun _ => True) (fetchBlock (ι := ι) height) :=
  relativeOfJob _ ⟨asked, fun _ => trivial⟩

end Wallet.Handler

namespace Wallet.Stream

theorem relativeItems (items : List ι) : (emitAll items).Relative asks fun _ => True := by
  induction items with
  | nil => trivial
  | cons item rest ih => exact ih

theorem relativeEach {job : κ → Handler ι ι}
    (each : ∀ key, (job key).Relative asks fun _ => True) (keys : List κ) :
    (emitEach job keys).Relative asks fun _ => True := by
  induction keys with
  | nil => trivial
  | cons key rest ih =>
    refine Job.relativeBind (each key) fun result _ => ?_
    cases result with
    | error status => trivial
    | ok item => exact ih

end Wallet.Stream

end

namespace Mempool

variable {ι : Type}

theorem enterInterval (mempool : Mempool) (now : Nat) :
    (mempool.enter now).2.interval = mempool.interval := by
  unfold enter
  split
  · rfl
  · rfl

theorem collectRelative (before : Snapshot) (left : List String)
    (found : List (String × Option CompactTx)) :
    (collect (ι := ι) before left found).Relative Call.reads fun _ => True := by
  induction left generalizing found with
  | nil => trivial
  | cons id left ih =>
    unfold collect
    split
    · exact ih _
    · refine ⟨by simp [Call.reads, txCall], fun reply => ?_⟩
      dsimp only
      split
      · exact ih found
      · split
        · trivial
        · exact ih _

theorem replaceRelative (snapshot : Snapshot) :
    (replace (ι := ι) snapshot).Relative Call.reads fun _ => True :=
  Job.relativeChange (fun _ => rfl) fun _ _ => rfl

theorem rebuildRelative : (rebuild (ι := ι)).Relative Call.reads fun _ => True := by
  refine ⟨by simp [Call.reads, listCall], fun reply => ?_⟩
  dsimp only
  split
  · trivial
  · refine Job.relativeBind (Job.relativeLook fun _ _ => rfl) fun before _ => ?_
    refine Job.relativeBind (collectRelative before _ []) fun result _ => ?_
    cases result with
    | error error => trivial
    | ok entries => exact Job.relativeBind (replaceRelative _) fun _ _ => trivial

theorem refreshRelative : (refresh (ι := ι)).Relative Call.reads fun _ => True := by
  refine Job.relativeBind (Job.relativeChange ?_ ?_) ?_
  · intro store
    exact enterInterval store.mempool store.now
  · intro store delay
    simp only [Store.later, laterEnter]
    rfl
  · intro entered _
    split
    · exact rebuildRelative
    · trivial

theorem queryRelative (held : List Bytes) :
    (query (ι := ι) held).Relative Call.reads fun _ => True := by
  refine Job.relativeBind refreshRelative fun result _ => ?_
  cases result with
  | error error => trivial
  | ok done => exact Job.relativeBind (Job.relativeLook fun _ _ => rfl) fun _ _ => trivial

end Mempool

namespace Follower

variable {ι : Type}

theorem onWindowRelative (update : Window → α × Window) :
    (onWindow (ι := ι) update).Relative Call.reads fun _ => True :=
  Job.relativeChange (fun _ => rfl) fun _ _ => rfl

theorem fetchRelative (height : Nat) :
    (Node.fetchBlock (σ := Store) (ι := ι) height).Relative Call.reads fun _ => True :=
  ⟨by simp [Call.reads, Node.blockCall], fun _ => trivial⟩

theorem extendRelative (block : CompactBlock) :
    (extend (ι := ι) block).Relative Call.reads fun _ => True := by
  refine Job.relativeBind (onWindowRelative _) fun taken _ => ?_
  split
  · trivial
  · refine Job.relativeBind (onWindowRelative _) fun dropped _ => ?_
    split
    · trivial
    · trivial

theorem verifyRelative : (verify (ι := ι)).Relative Call.reads fun _ => True := by
  refine Job.relativeBind (Job.relativeLook fun _ _ => rfl) fun tip _ => ?_
  cases tip with
  | none => trivial
  | some tip =>
    refine Job.relativeBind (fetchRelative tip.1) fun found _ => ?_
    split
    · exact Job.relativeBind (onWindowRelative _) fun _ _ => trivial
    · trivial

theorem turnRelative : (turn (ι := ι)).Relative Call.reads fun _ => True := by
  refine Job.relativeBind (Job.relativeLook fun _ _ => rfl) fun height _ => ?_
  refine Job.relativeBind (fetchRelative height) fun found _ => ?_
  split
  · trivial
  · exact Job.relativeBind verifyRelative fun _ _ => trivial
  · split
    · trivial
    · exact extendRelative _

end Follower

namespace Wallet
open Handler

variable {ι : Type}

abbrev Handler.Reads (handler : Handler ι α) : Prop := handler.Relative Call.reads fun _ => True

abbrev Handler.ReadsOn (handler : Handler ι (Stream κ)) : Prop :=
  handler.Relative Call.reads fun stream => stream.produce.Relative Call.reads fun _ => True

theorem blockReads (height : Nat) : (compactBlock (ι := ι) height).Reads := by
  refine relativeThen (relativeLook fun _ _ => rfl) fun held _ => ?_
  cases held with
  | some block => exact relativePure trivial
  | none =>
    refine relativeThen (relativeFetch height (by simp [Call.reads, Node.blockCall])) fun found _ => ?_
    exact relativeThen (relativeRequired _ _) fun block _ => relativeOfExcept _ _

theorem latestBlockReads : (latestBlock (ι := ι)).Reads :=
  relativeThen (relativeInfo (by simp [Call.reads, Node.infoCall])) fun _ _ =>
    relativeThen (relativeLook fun _ _ => rfl) fun _ _ => relativePure trivial

theorem getBlockReads (id : BlockId) : (getBlock (ι := ι) id).Reads :=
  relativeThen (relativeEnsure _ _) fun _ _ =>
    relativeThen (relativeEnsure _ _) fun _ _ => blockReads id.height

theorem walkReads (step : Nat → Nat) (left height : Nat) :
    (walk step left height).Relative Call.reads fun _ => True := by
  induction left generalizing height with
  | zero => trivial
  | succ left ih =>
    refine Job.relativeBind (blockReads height) fun result _ => ?_
    cases result with
    | error status => trivial
    | ok block => exact ih (step height)

theorem blockRangeReads (range : BlockRange) : (getBlockRange (ι := ι) range).ReadsOn := by
  unfold getBlockRange
  split
  · refine relativePure ?_
    show (walkBetween _ _).Relative Call.reads fun _ => True
    unfold walkBetween
    split
    · exact walkReads _ _ _
    · exact walkReads _ _ _
  · exact relativeThrow _

theorem transactionReads (id : Bytes) : (transaction (ι := ι) id).Reads :=
  relativeThen (relativeRequest (by simp [Call.reads, txCall]) _) fun _ _ =>
    relativeThen (relativeNodeHex _) fun _ _ => relativePure trivial

theorem getTransactionReads (filter : TxFilter) : (getTransaction (ι := ι) filter).Reads := by
  unfold getTransaction
  split
  · exact relativeThen (relativeEnsure _ _) fun _ _ => transactionReads _
  · split
    · exact relativeThrow _
    · exact relativeThrow _

theorem addressTxsReads (filter : AddressFilter) : (addressTxs (ι := ι) filter).ReadsOn :=
  relativeThen (relativeOfExcept _ _) fun _ _ =>
    relativeThen (relativeRequired _ _) fun _ _ =>
    relativeThen (relativeRequired _ _) fun _ _ =>
    relativeThen (relativeRequired _ _) fun _ _ =>
    relativeThen (relativeRequest (by simp [Call.reads, txidsCall]) _) fun _ _ =>
    relativePure (Stream.relativeEach (fun _ =>
      relativeThen (relativeNodeHex _) fun _ _ => transactionReads _) _)

theorem balanceReads (addresses : List String) : (getBalance (ι := ι) addresses).Reads :=
  relativeThen (relativeOfExcept _ _) fun _ _ =>
    relativeThen (relativeRequest (by simp [Call.reads, balanceCall]) _) fun _ _ =>
    relativePure trivial

theorem mempoolTxsReads (held : List Bytes) : (mempoolTxs (ι := ι) held).ReadsOn :=
  relativeThen (relativeOfJob _ (Mempool.queryRelative held)) fun txs _ =>
    relativePure (Stream.relativeItems txs)

theorem followPointersReads (rounds : Nat) (trees : Trees) :
    (followPointers (ι := ι) rounds trees).Relative Call.reads fun _ => True := by
  induction rounds generalizing trees with
  | zero =>
    unfold followPointers
    split
    · trivial
    · trivial
  | succ rounds ih =>
    unfold followPointers
    split
    · refine ⟨by simp [Call.reads, treeCall], fun reply => ?_⟩
      dsimp only
      split
      · trivial
      · exact ih _
    · trivial

theorem treeAnswerReads (requested : TreeReply) (trees : Trees) :
    (treeAnswer (ι := ι) requested trees).Reads :=
  relativeThen (relativeEnsure _ _) fun _ _ =>
    relativeThen (relativeInfo (by simp [Call.reads, Node.infoCall])) fun _ _ => relativePure trivial

theorem treeStateReads (rounds : Nat) (id : BlockId) :
    (treeState (ι := ι) rounds id).Relative Call.reads fun _ => True := by
  unfold treeState
  split
  · trivial
  · refine ⟨by simp [Call.reads, treeCall], fun reply => ?_⟩
    dsimp only
    split
    · trivial
    · rename_i requested _
      refine Job.relativeBind (followPointersReads rounds _) fun result _ => ?_
      rcases result with _ | _ | trees
      · trivial
      · trivial
      · exact Job.relativeBind (treeAnswerReads requested trees) fun _ _ => trivial

theorem utxosReads (filter : UtxoFilter) : (getUtxos (ι := ι) filter).Reads :=
  relativeThen (relativeOfExcept _ _) fun _ _ =>
    relativeThen (relativeRequest (by simp [Call.reads, utxosCall]) _) fun _ _ =>
    relativeOfExcept _ _

theorem utxoStreamReads (filter : UtxoFilter) : (getUtxoStream (ι := ι) filter).ReadsOn :=
  relativeThen (utxosReads filter) fun utxos _ => relativePure (Stream.relativeItems utxos)

theorem serverInfoReads : (serverInfo (ι := ι)).Reads :=
  relativeThen (relativeInfo (by simp [Call.reads, Node.infoCall])) fun _ _ => relativePure trivial

theorem sendRelative (tx : RawTx) :
    (sendTransaction (ι := ι) tx).Relative (fun _ => True) fun _ => True :=
  relativeThen (relativeEnsure _ _) fun _ _ => ⟨trivial, fun _ _ _ => trivial⟩

end Wallet

end WalletProxy
