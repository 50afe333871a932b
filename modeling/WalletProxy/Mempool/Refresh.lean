import WalletProxy.Mempool.Basic

/-! Refreshing and querying the mempool, as jobs. -/
namespace WalletProxy.Mempool

variable {ι : Type}

def listCall : Call := ⟨"getrawmempool", []⟩

def txCall (id : String) : Call := ⟨"getrawtransaction", [.text id, .nat 0]⟩

def idsOfReply (reply : Reply) : Except MempoolError (List String) :=
  match reply with
  | .error error => .error (.node error)
  | .ok json =>
      match json.listOf? Json.text? with
      | none => .error .unexpectedReply
      | some ids => .ok ids

/-- Finds the entries of the ids that are left, beside those `found` already. An id that the
snapshot before knows is not asked for; one that the node does not know any more has no entry. -/
def collect (before : Snapshot) :
    (left : List String) → (found : List (String × Option CompactTx)) →
      Job Store ι (Except MempoolError (List (String × Option CompactTx)))
  | [], found => .done (.ok found)
  | id :: left, found =>
      match before.entry? id with
      | some entry => collect before left ((id, entry) :: found)
      | none => .ask (txCall id) fun reply =>
          match reply with
          | .error _ => collect before left found
          | .ok json =>
              match entryOfJson json with
              | .error error => .done (.error error)
              | .ok entry => collect before left ((id, entry) :: found)

def replace (snapshot : Snapshot) : Job Store ι Unit :=
  .change fun store => ((), { store with mempool := { store.mempool with snapshot } })

/-- Clears the mempool in two steps, between which other work can come. -/
def erase : Job Store ι Unit := do
  replace .empty
  .change fun store => ((), { store with mempool := { store.mempool with refreshedAt := none } })

theorem eraseRun {ν : Type} (answer : Call → ν → Reply × ν) (store : Store) (node : ν) :
    Job.run answer (erase : Job Store ι Unit) store node =
      ⟨(), [], { store with mempool := store.mempool.clear }, node⟩ := rfl

def rebuild : Job Store ι (Except MempoolError Unit) :=
  .ask listCall fun reply =>
    match idsOfReply reply with
    | .error error => .done (.error error)
    | .ok ids => do
        let before ← Job.look fun store : Store => store.mempool.snapshot
        match ← collect before ids [] with
        | .error error => return .error error
        | .ok entries =>
            replace ⟨ids, entries⟩
            return .ok ()

def refresh : Job Store ι (Except MempoolError Unit) := do
  let entered ← Job.change fun store : Store =>
    let (entered, mempool) := store.mempool.enter store.now
    (entered, { store with mempool })
  if entered then rebuild else return .ok ()

def query (held : List Bytes) : Job Store ι (Except MempoolError (List CompactTx)) := do
  match ← refresh with
  | .error error => return .error error
  | .ok () =>
      let snapshot ← Job.look fun store : Store => store.mempool.snapshot
      return .ok (snapshot.needed held)

end WalletProxy.Mempool
