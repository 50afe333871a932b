import WalletProxy.Mempool.Refresh
import WalletProxy.Proofs.JobCrew

/-! What a refresh of the mempool does, step by step, while other work comes between. It may start
from any snapshot that another one put there meanwhile; it keeps a faithful snapshot faithful, asks
for no transaction that the snapshot it starts from knows, leaves the snapshot alone if it fails,
and if it succeeds puts one in place with an entry for all that the node told. -/
namespace WalletProxy

def Snapshot.Faithful (txs : String → Transaction) (snapshot : Snapshot) : Prop :=
  ∀ id entry, (id, entry) ∈ snapshot.entries →
    id ∈ snapshot.ids ∧ entry = Mempool.entryOf (txs id)

namespace Mempool

variable {ι : Type} {txs : String → Transaction}

theorem entryStands {snapshot : Snapshot} {id : String} {entry : Option CompactTx}
    (found : snapshot.entry? id = some entry) : (id, entry) ∈ snapshot.entries := by
  obtain ⟨⟨key, value⟩, first, rfl⟩ := Option.map_eq_some_iff.mp found
  have same : key = id := by simpa using List.find?_some first
  rw [← same]
  exact List.mem_of_find?_eq_some first

theorem faithfulCons {ids : List String} {found : List (String × Option CompactTx)} {id : String}
    {entry : Option CompactTx} (listed : id ∈ ids) (right : entry = entryOf (txs id))
    (faithful : Snapshot.Faithful txs ⟨ids, found⟩) :
    Snapshot.Faithful txs ⟨ids, (id, entry) :: found⟩ := by
  intro other value member
  rcases List.mem_cons.mp member with same | old
  · obtain ⟨rfl, rfl⟩ := Prod.mk.inj same
    exact ⟨listed, right⟩
  · exact faithful other value old

inductive Truthful (tx : Transaction) : Reply → Prop where
  | refused (error : NodeError) : Truthful tx (.error error)
  | unreadable {json : Json} {fault : MempoolError} (garbled : entryOfJson json = .error fault) :
      Truthful tx (.ok json)
  | told {json : Json} {hex : String} {bytes : Bytes} (shown : TxReply.hexOfJson? json = some hex)
      (decoded : Hex.decode hex = .ok bytes) (read : Transaction.ofBytes bytes = .ok tx) :
      Truthful tx (.ok json)

def Honest (txs : String → Transaction) (node : Call → Reply) : Prop :=
  ∀ id, Truthful (txs id) (node (txCall id))

theorem truthfulEntry {tx : Transaction} {json : Json} {entry : Option CompactTx}
    (truth : Truthful tx (.ok json)) (read : entryOfJson json = .ok entry) :
    entry = entryOf tx := by
  cases truth with
  | unreadable garbled => simp [garbled] at read
  | told shown decoded whole =>
    simp only [entryOfJson, shown, decoded, whole, Except.ok.injEq] at read
    exact read.symm

/- The snapshot before is the one that is there when the ids have come, whoever built it; that it is
faithful is all that is needed of it. -/
theorem collectKeeps {inv : Store → Prop} {before : Snapshot} (known : before.Faithful txs)
    {ids left : List String} (listed : ∀ id ∈ left, id ∈ ids)
    {found : List (String × Option CompactTx)} (right : Snapshot.Faithful txs ⟨ids, found⟩) :
    (collect before left found : Job Store ι _).Keeps inv (Honest txs) fun result =>
      ∀ entries, result = .ok entries → Snapshot.Faithful txs ⟨ids, entries⟩ := by
  induction left generalizing found with
  | nil =>
    intro entries same
    cases same
    exact right
  | cons id left ih =>
    obtain ⟨here, later⟩ := List.forall_mem_cons.mp listed
    unfold collect
    cases carried : before.entry? id with
    | some entry =>
      have own := (known id entry (entryStands carried)).2
      exact ih later (faithfulCons here own right)
    | none =>
      intro node fair
      have truth := fair id
      dsimp only
      cases reply : node (txCall id) with
      | error error => exact ih later right
      | ok json =>
        rw [reply] at truth
        dsimp only
        cases read : entryOfJson json with
        | error fault =>
          intro entries same
          cases same
        | ok entry => exact ih later (faithfulCons here (truthfulEntry truth read) right)

def FaithfulStore (txs : String → Transaction) (store : Store) : Prop :=
  store.mempool.snapshot.Faithful txs

theorem emptyFaithful (txs : String → Transaction) (ids : List String) :
    Snapshot.Faithful txs ⟨ids, []⟩ := by
  intro id entry member
  cases member

def conclude (ids : List String) :
    Except MempoolError (List (String × Option CompactTx)) → Job Store ι (Except MempoolError Unit)
  | .error error => .done (.error error)
  | .ok entries => (replace ⟨ids, entries⟩).bind fun _ => .done (.ok ())

theorem rebuildIs : (rebuild : Job Store ι _) = .ask listCall fun reply =>
    match idsOfReply reply with
    | .error error => .done (.error error)
    | .ok ids => .act id fun store =>
        (collect store.mempool.snapshot ids []).bind (conclude ids) := rfl

theorem rebuildKeeps : (rebuild : Job Store ι _).Keeps (FaithfulStore txs) (Honest txs)
    fun _ => True := by
  rw [rebuildIs]
  intro node fair
  dsimp only
  cases idsOfReply (node listCall) with
  | error error => trivial
  | ok ids =>
    intro store kept
    refine ⟨kept, Job.keepsBind (collectKeeps kept (fun id member => member)
      (emptyFaithful txs ids)) fun result right => ?_⟩
    cases result with
    | error error => trivial
    | ok entries => exact fun store kept => ⟨right entries rfl, trivial⟩

def entered (store : Store) : Store :=
  { store with mempool := (store.mempool.enter store.now).2 }

theorem refreshIs : (refresh : Job Store ι _) = .act entered fun store =>
    if (store.mempool.enter store.now).1 = true then rebuild else .done (.ok ()) := rfl

theorem enteredSnapshot (store : Store) :
    (entered store).mempool.snapshot = store.mempool.snapshot := by
  unfold entered enter
  split
  · rfl
  · rfl

theorem refreshKeeps : (refresh : Job Store ι _).Keeps (FaithfulStore txs) (Honest txs)
    fun _ => True := by
  rw [refreshIs]
  intro store kept
  refine ⟨?_, ?_⟩
  · unfold FaithfulStore
    rw [enteredSnapshot]
    exact kept
  · dsimp only
    split
    · exact rebuildKeeps
    · trivial

def startedFrom? : List (Job.Moment Store ι) → Option Snapshot
  | .acted _ _ :: .asked _ _ :: .acted store _ :: _ => some store.mempool.snapshot
  | _ => none

def Untouched : Job.Moment Store ι → Prop
  | .acted before after => after.mempool.snapshot = before.mempool.snapshot
  | .asked _ _ | .gave _ => True

def AsksNew (before : Snapshot) : Job.Moment Store ι → Prop
  | .asked call _ => ∃ id, call = txCall id ∧ before.entry? id = none
  | .acted _ _ | .gave _ => True

theorem txCallInj {id other : String} (same : txCall id = txCall other) : id = other := by
  simpa [txCall] using same

theorem txCallOther {id : String} : txCall id ≠ listCall := by
  simp [txCall, listCall]

theorem collectSteps (before : Snapshot) (left : List String)
    (found : List (String × Option CompactTx)) :
    (collect before left found : Job Store ι _).Steps fun moment =>
      Untouched moment ∧ AsksNew before moment := by
  induction left generalizing found with
  | nil => trivial
  | cons id left ih =>
    unfold collect
    cases carried : before.entry? id with
    | some entry => exact ih _
    | none =>
      intro reply
      refine ⟨⟨trivial, id, rfl, carried⟩, ?_⟩
      cases reply with
      | error error => exact ih found
      | ok json =>
        dsimp only
        cases entryOfJson json with
        | error fault => trivial
        | ok entry => exact ih _

def Silent : Job.Moment Store ι → Prop
  | .asked _ _ => False
  | .acted _ _ | .gave _ => True

theorem silentNew {moment : Job.Moment Store ι} (before : Snapshot) (silent : Silent moment) :
    AsksNew before moment := by
  cases moment with
  | asked call reply => exact False.elim silent
  | acted before after => trivial
  | gave item => trivial

theorem concludeSilent (ids : List String)
    (result : Except MempoolError (List (String × Option CompactTx))) :
    (conclude ids result : Job Store ι _).Steps Silent := by
  cases result with
  | error error => trivial
  | ok entries => exact fun store => ⟨trivial, trivial⟩

def Early (moment : Job.Moment Store ι) : Prop :=
  Untouched moment ∧ ∀ id reply, moment ≠ .asked (txCall id) reply

theorem enteredEarly (store : Store) :
    Early (.acted store (entered store) : Job.Moment Store ι) :=
  ⟨enteredSnapshot store, nofun⟩

theorem listedEarly (reply : Reply) : Early (.asked listCall reply : Job.Moment Store ι) :=
  ⟨trivial, fun _ _ same => txCallOther (Job.Moment.asked.inj same).1.symm⟩

inductive Refreshing {β : Type} (f : Except MempoolError Unit → Job Store ι β)
    (rest : Job Store ι β) : List (Job.Moment Store ι) → Prop where
  | stopped {past} (early : ∀ moment ∈ past, Early moment) (unended : ∀ value, rest ≠ .done value) :
      Refreshing f rest past
  | closed {tail} (store : Store) (on : (f (.ok ())).Goes tail rest) :
      Refreshing f rest (.acted store (entered store) :: tail)
  | unlisted {tail} (store : Store) {listed : Reply} {error : MempoolError}
      (on : (f (.error error)).Goes tail rest) :
      Refreshing f rest (.acted store (entered store) :: .asked listCall listed :: tail)
  | collecting {tail} (store : Store) {listed : Reply} (seen : Store) {ids : List String}
      (told : idsOfReply listed = .ok ids)
      (on : (Job.bind (Job.bind (collect seen.mempool.snapshot ids []) (conclude ids)) f).Goes
        tail rest) :
      Refreshing f rest
        (.acted store (entered store) :: .asked listCall listed :: .acted seen seen :: tail)

theorem refreshGoes {β : Type} {f : Except MempoolError Unit → Job Store ι β}
    {past : List (Job.Moment Store ι)} {rest : Job Store ι β}
    (goes : (Job.bind refresh f).Goes past rest) : Refreshing f rest past := by
  rw [refreshIs] at goes
  cases goes with
  | stays => exact .stopped nofun nofun
  | acts store on =>
    have gate := enteredEarly (ι := ι) store
    dsimp only at on
    split at on
    · rw [rebuildIs] at on
      cases on with
      | stays => exact .stopped (by simpa using gate) nofun
      | asks listed on =>
        dsimp only at on
        split at on
        · exact .unlisted store on
        · rename_i ids told
          cases on with
          | stays => exact .stopped (by simp [gate, listedEarly]) nofun
          | acts seen on => exact .collecting store seen told on
    · exact .closed store on

theorem refreshAsks {β : Type} {f : Except MempoolError Unit → Job Store ι β}
    (silent : ∀ result, (f result).Steps Silent) {past : List (Job.Moment Store ι)}
    {rest : Job Store ι β} (goes : (Job.bind refresh f).Goes past rest) {id : String}
    {reply : Reply} (asked : .asked (txCall id) reply ∈ past) :
    ∃ before, startedFrom? past = some before ∧ before.entry? id = none := by
  cases refreshGoes goes with
  | stopped early _ => exact absurd rfl ((early _ asked).2 id reply)
  | closed store on =>
    have asked := (List.mem_cons.mp asked).resolve_left nofun
    exact False.elim (Job.stepsGoes (silent _) on _ asked)
  | unlisted store on =>
    simp only [List.mem_cons, reduceCtorEq, Job.Moment.asked.injEq, txCallOther, false_and,
      false_or] at asked
    exact False.elim (Job.stepsGoes (silent _) on _ asked)
  | collecting store seen told on =>
    simp only [List.mem_cons, reduceCtorEq, Job.Moment.asked.injEq, txCallOther, false_and,
      false_or] at asked
    have new : AsksNew seen.mempool.snapshot (ι := ι) (.asked (txCall id) reply) := by
      refine Job.stepsGoes ?_ on _ asked
      refine Job.stepsBind (Job.stepsBind ?_ fun result => ?_) fun result => ?_
      · exact Job.stepsMono (collectSteps _ _ _) fun moment steps => steps.2
      · exact Job.stepsMono (concludeSilent _ result) fun _ => silentNew _
      · exact Job.stepsMono (silent result) fun _ => silentNew _
    obtain ⟨other, same, unknown⟩ := new
    rw [txCallInj same]
    exact ⟨_, rfl, unknown⟩

theorem concludeFails {ids : List String}
    {result : Except MempoolError (List (String × Option CompactTx))}
    {past : List (Job.Moment Store ι)} {error : MempoolError}
    (goes : (conclude ids result).Goes past (.done (.error error))) : past = [] := by
  cases result with
  | error fault => exact (Job.goesNowhere goes).1
  | ok entries => cases goes with | acts store on => cases on

theorem refreshFails {past : List (Job.Moment Store ι)} {error : MempoolError}
    (goes : (refresh : Job Store ι _).Goes past (.done (.error error))) :
    ∀ moment ∈ past, Untouched moment := by
  rw [← Job.doneBind refresh] at goes
  cases refreshGoes goes with
  | stopped early _ => exact fun moment member => (early moment member).1
  | closed store on => cases on
  | unlisted store on =>
    rw [(Job.goesNowhere on).1]
    simp [Untouched, enteredSnapshot]
  | collecting store seen told on =>
    rw [Job.doneBind] at on
    obtain ⟨collecting, concluding, result, rfl, collected, concluded⟩ := Job.bindEnds on
    have steps := Job.stepsGoes (collectSteps _ _ []) collected
    rw [concludeFails concluded, List.append_nil]
    simp only [List.forall_mem_cons]
    exact ⟨enteredSnapshot store, trivial, rfl, fun moment member => (steps moment member).1⟩

theorem collectGrows {before : Snapshot} {left : List String}
    {found entries : List (String × Option CompactTx)} {past : List (Job.Moment Store ι)}
    (goes : (collect before left found).Goes past (.done (.ok entries))) :
    ∀ pair ∈ found, pair ∈ entries := by
  induction left generalizing found past with
  | nil =>
    cases (Job.goesNowhere goes).2
    exact fun pair member => member
  | cons id left ih =>
    unfold collect at goes
    cases carried : before.entry? id with
    | some entry =>
      rw [carried] at goes
      exact fun pair member => ih goes pair (List.mem_cons_of_mem _ member)
    | none =>
      rw [carried] at goes
      cases goes with
      | asks reply on =>
        cases reply with
        | error error => exact ih on
        | ok json =>
          dsimp only at on
          split at on
          · cases on
          · exact fun pair member => ih on pair (List.mem_cons_of_mem _ member)

def Missed (past : List (Job.Moment Store ι)) (id : String) : Prop :=
  ∃ error, .asked (txCall id) (.error error) ∈ past

theorem collectFinds {before : Snapshot} {left : List String}
    {found entries : List (String × Option CompactTx)} {past : List (Job.Moment Store ι)}
    (goes : (collect before left found).Goes past (.done (.ok entries))) :
    ∀ id ∈ left, (∃ entry, (id, entry) ∈ entries) ∨ Missed past id := by
  induction left generalizing found past with
  | nil => nofun
  | cons id left ih =>
    unfold collect at goes
    refine List.forall_mem_cons.mpr ?_
    cases carried : before.entry? id with
    | some entry =>
      rw [carried] at goes
      exact ⟨Or.inl ⟨entry, collectGrows goes _ List.mem_cons_self⟩, ih goes⟩
    | none =>
      rw [carried] at goes
      cases goes with
      | asks reply on =>
        have later : ∀ {moments : List (Job.Moment Store ι)} {other : String},
            Missed moments other → Missed (.asked (txCall id) reply :: moments) other :=
          fun ⟨error, member⟩ => ⟨error, List.mem_cons_of_mem _ member⟩
        cases reply with
        | error error =>
          exact ⟨Or.inr ⟨error, List.mem_cons_self⟩,
            fun other member => (ih on other member).imp_right later⟩
        | ok json =>
          dsimp only at on
          split at on
          · cases on
          · exact ⟨Or.inl ⟨_, collectGrows on _ List.mem_cons_self⟩,
              fun other member => (ih on other member).imp_right later⟩

def Replaced (past : List (Job.Moment Store ι)) (ids : List String) : Prop :=
  ∃ entries before, .acted before { before with
      mempool := { before.mempool with snapshot := ⟨ids, entries⟩ } } ∈ past ∧
    ∀ id ∈ ids, (∃ entry, (id, entry) ∈ entries) ∨ Missed past id

theorem concludeReplaces {ids : List String}
    {result : Except MempoolError (List (String × Option CompactTx))}
    {past : List (Job.Moment Store ι)} (goes : (conclude ids result).Goes past (.done (.ok ()))) :
    ∃ entries before, result = .ok entries ∧ past = [.acted before { before with
      mempool := { before.mempool with snapshot := ⟨ids, entries⟩ } }] := by
  cases result with
  | error error => cases goes
  | ok entries =>
    cases goes with
    | acts before on =>
      cases (Job.goesNowhere on).1
      exact ⟨entries, before, rfl, rfl⟩

theorem refreshReplaces {past : List (Job.Moment Store ι)}
    (goes : (refresh : Job Store ι _).Goes past (.done (.ok ()))) {listed : Reply}
    (asked : .asked listCall listed ∈ past) :
    ∃ ids, idsOfReply listed = .ok ids ∧ Replaced past ids := by
  rw [← Job.doneBind refresh] at goes
  cases refreshGoes goes with
  | stopped _ unended => exact absurd rfl (unended _)
  | closed store on =>
    rw [(Job.goesNowhere on).1] at asked
    simp at asked
  | unlisted store on => cases on
  | collecting store seen told on =>
    rw [Job.doneBind] at on
    obtain ⟨collecting, concluding, result, rfl, collected, concluded⟩ := Job.bindEnds on
    obtain ⟨entries, before, rfl, rfl⟩ := concludeReplaces concluded
    have steps := Job.stepsGoes (collectSteps _ _ []) collected
    have apart : .asked listCall listed ∉ collecting := by
      intro member
      obtain ⟨-, id, same, -⟩ := steps _ member
      exact txCallOther same.symm
    simp only [List.mem_cons, List.mem_append, apart, reduceCtorEq, Job.Moment.asked.injEq,
      List.not_mem_nil, true_and, false_or, or_false] at asked
    rw [asked]
    refine ⟨_, told, entries, before, by simp, fun id member => ?_⟩
    exact (collectFinds collected id member).imp_right fun missed => by
      obtain ⟨error, asked⟩ := missed
      exact ⟨error, by simp [asked]⟩

end Mempool

end WalletProxy
