import WalletProxy.Proofs.HandlerRun
import WalletProxy.Proofs.ServedChain
import WalletProxy.Proofs.Staging
import WalletProxy.Wallet.Transactions

/-! Looking up a transaction by its id. The simulated chain finds it in the lowest block that holds
one with the id, whichever case the digits are in that the id is told by; a wallet, which tells the
id by its bytes from the other end, gets the same transaction. -/
namespace WalletProxy

theorem TxReply.ofToJson {hex : String} {height : Nat} (bounded : height < 2 ^ 63) :
    ofJson? (toJson ⟨hex, height⟩) = some ⟨hex, height⟩ := by
  have order : "height" < "hex" := by decide
  have members : toJson ⟨hex, height⟩ = .object [("height", .int height), ("hex", .text hex)] := by
    simp only [toJson, Json.ofMembers, List.foldl_cons, List.foldl_nil, Json.putMember,
      if_pos order]
  have least : Int64.minValue.toInt = -2 ^ 63 := by decide
  have greatest : Int64.maxValue.toInt = 2 ^ 63 - 1 := by decide
  have number : Json.int64? (.int height) = some (height : Int) := by
    simp only [Json.int64?, Json.intIn?, Json.int?, Json.int, Option.filter, least, greatest]
    rw [if_pos]
    simp only [Bool.and_eq_true, decide_eq_true_eq]
    omega
  rw [members]
  simp [ofJson?, Json.fields?, Json.get?, Json.text?, Json.orElse, number]

def Block.Holds (id : Bytes32) (block : Block) : Prop := ∃ tx ∈ block.transactions, tx.id = id

namespace SimChain

theorem shownNatural {height : Nat} (bounded : height < 2 ^ 63) : shownHeight height = height :=
  Int64.toInt_ofNat_of_lt bounded

theorem namesId {text : String} (size : text.length = 64)
    (digits : ∀ c ∈ text.toList, Hex.isDigit c = true) :
    isTxId text = true ∧ ∃ id : Bytes32, Hex.decode text = .ok id.val.reverse ∧
      lowerCase text = id.display := by
  have ascii := Bytes.ofAsciiChars fun c member => Hex.digitAsciiChar (digits c member)
  have bytes : text.utf8ByteSize = 64 := by
    have count := congrArg List.length ascii
    rw [← size, ← String.length_toList]
    simpa [Bytes.ofText] using count
  have even : text.length = 2 * 32 := size
  obtain ⟨shown, count, decoded, lower⟩ := Hex.decodeText digits even
  refine ⟨by simpa [isTxId, bytes] using digits, ⟨shown.reverse, by simp [count]⟩, ?_, ?_⟩
  · rw [decoded, List.reverse_reverse]
  · rw [lowerCase, lower, Bytes32.display, List.reverse_reverse]

theorem displayNames (id : Bytes32) : isTxId id.display = true ∧ lowerCase id.display = id.display := by
  obtain ⟨size, digits⟩ := id.displayDigits
  obtain ⟨whole, other, decoded, lower⟩ := namesId size digits
  rw [Bytes32.display, Hex.decodeEncoded] at decoded
  have same : id = other := Subtype.ext (List.reverse_inj.mp (Except.ok.inj decoded))
  subst same
  exact ⟨whole, lower⟩

theorem findTxSome {id : Bytes32} {blocks : List Block} {tx : BlockTx} {height : Nat}
    (found : findTx id.display blocks = some (tx, height)) :
    ∃ below block above, blocks = below ++ block :: above ∧ height = block.height ∧
      tx ∈ block.transactions ∧ tx.id = id ∧ ∀ other ∈ below, ¬ other.Holds id := by
  induction blocks with
  | nil => cases found
  | cons block rest ih =>
    unfold findTx at found
    cases own : block.transactions.find? fun tx => tx.id.display = id.display with
    | some first =>
      rw [own] at found
      cases found
      have named := List.find?_some own
      exact ⟨[], block, rest, rfl, rfl, List.mem_of_find?_eq_some own,
        Bytes32.displayInj (of_decide_eq_true named), nofun⟩
    | none =>
      rw [own] at found
      obtain ⟨below, lowest, above, rfl, same, member, named, others⟩ := ih found
      refine ⟨block :: below, lowest, above, rfl, same, member, named,
        List.forall_mem_cons.mpr ⟨?_, others⟩⟩
      rintro ⟨other, inside, rfl⟩
      simpa using List.find?_eq_none.mp own other inside

theorem findTxNone {id : Bytes32} {blocks : List Block}
    (absent : findTx id.display blocks = none) : ∀ block ∈ blocks, ¬ block.Holds id := by
  induction blocks with
  | nil => nofun
  | cons block rest ih =>
    unfold findTx at absent
    cases own : block.transactions.find? fun tx => tx.id.display = id.display with
    | some first =>
      rw [own] at absent
      cases absent
    | none =>
      rw [own] at absent
      refine List.forall_mem_cons.mpr ⟨?_, ih absent⟩
      rintro ⟨other, inside, rfl⟩
      simpa using List.find?_eq_none.mp own other inside

structure Lowest (chain : SimChain) (id : Bytes32) (block : Block) (tx : BlockTx) : Prop where
  active : block ∈ chain.active.blocks
  member : tx ∈ block.transactions
  parsed : BlockTx.ofBytes tx.data = .ok ⟨id, tx.data⟩
  lowest : ∀ other ∈ chain.active.blocks, other.Holds id → block.height ≤ other.height

theorem lowestHolds {chain : SimChain} {id : Bytes32} {block : Block} {tx : BlockTx}
    (valid : chain.Valid) (found : Lowest chain id block tx) : block.Holds id := by
  have own := (valid.sound.wellFormed block found.active).parsed tx found.member
  exact ⟨tx, found.member, congrArg BlockTx.id (Except.ok.inj (own.symm.trans found.parsed))⟩

theorem lookedUp {chain : SimChain} (valid : chain.Valid) (ready : chain.isReset = true)
    (bounded : ∀ block ∈ chain.active.blocks, block.height < 2 ^ 63) {text : String} {id : Bytes32}
    (whole : isTxId text = true) (named : lowerCase text = id.display) :
    (∃ block tx, Lowest chain id block tx ∧ ∀ others,
        chain.getRawTransaction (.text text :: others) =
          .ok (TxReply.toJson ⟨Hex.encode tx.data, block.height⟩)) ∨
      (∀ block ∈ chain.active.blocks, ¬ block.Holds id) ∧ ∀ others,
        chain.getRawTransaction (.text text :: others) = .error (.reported NodeError.unknownKey
          "No information available about transaction") := by
  have first : ∀ others, firstText? (.text text :: others) = some text := fun _ => rfl
  unfold getRawTransaction
  simp only [ready, first, whole, named, Bool.not_true, Bool.false_eq_true, if_false]
  cases found : findTx id.display chain.active.blocks with
  | none => exact Or.inr ⟨findTxNone found, fun _ => rfl⟩
  | some pair =>
    obtain ⟨tx, height⟩ := pair
    obtain ⟨below, block, above, split, rfl, member, same, missed⟩ := findTxSome found
    have active : block ∈ chain.active.blocks := by simp [split]
    have own := (valid.sound.wellFormed block active).parsed tx member
    have parsed : BlockTx.ofBytes tx.data = .ok ⟨id, tx.data⟩ := by
      rw [own, ← same]
    have lowest : ∀ other ∈ chain.active.blocks, other.Holds id → block.height ≤ other.height := by
      intro other there holds
      obtain ⟨index, position⟩ := List.mem_iff_getElem?.mp there
      have place : chain.active.blocks[below.length]? = some block := by simp [split]
      have above : below.length ≤ index := by
        refine Nat.le_of_not_lt fun under => ?_
        rw [split, List.getElem?_append_left under] at position
        exact missed other (List.mem_of_getElem? position) holds
      rw [valid.sound.heights _ other position, valid.sound.heights _ block place]
      omega
    refine Or.inl ⟨block, tx, ⟨active, member, parsed, lowest⟩, fun _ => ?_⟩
    dsimp only
    rw [shownNatural (bounded block active)]

theorem memberFound {chain : SimChain} (valid : chain.Valid) (ready : chain.isReset = true)
    (bounded : ∀ block ∈ chain.active.blocks, block.height < 2 ^ 63) {block : Block} {tx : BlockTx}
    (active : block ∈ chain.active.blocks) (member : tx ∈ block.transactions) :
    ∃ lowest first, Lowest chain tx.id lowest first ∧ lowest.height ≤ block.height ∧ ∀ others,
      chain.getRawTransaction (.text tx.id.display :: others) =
        .ok (TxReply.toJson ⟨Hex.encode first.data, lowest.height⟩) := by
  obtain ⟨whole, lower⟩ := displayNames tx.id
  rcases lookedUp valid ready bounded whole lower with
    ⟨lowest, first, found, told⟩ | ⟨missed, _⟩
  · exact ⟨lowest, first, found, found.lowest block active ⟨tx, member, rfl⟩, told⟩
  · exact absurd ⟨tx, member, rfl⟩ (missed block active)

theorem answerLookup (chain : SimChain) (params : List Json) :
    answer ⟨"getrawtransaction", params⟩ chain = (chain.getRawTransaction params, chain) := by
  have reads : ¬ "getrawtransaction" = "sendrawtransaction" := by decide
  exact if_neg reads

theorem getBlockServes {chain : SimChain} {params : List Json} {json : Json}
    (ok : chain.getBlock params = .ok json) :
    ∃ block, block ∈ chain.active.blocks ∧ json = .text (Hex.encode block.write) := by
  unfold getBlock at ok
  split at ok
  · cases ok
  · split at ok
    · cases ok
    · split at ok
      · cases ok
      · rename_i block served
        exact ⟨block, servedActive served, (Except.ok.inj ok).symm⟩

section
variable {ι ν : Type} {answer : Call → ν → Reply × ν} {store : Store} {node : ν}

theorem transactionRun {id : Bytes32} {data : Bytes} {height : Nat} (bounded : height < 2 ^ 63)
    (told : answer (Wallet.txCall id.display) node =
      (.ok (TxReply.toJson ⟨Hex.encode data, height⟩), node))
    {filter : Wallet.TxFilter} (named : filter.hash = id.val) :
    Job.run answer (Wallet.getTransaction (ι := ι) filter).run store node =
      ⟨.ok ⟨data, height⟩, [], store, node⟩ := by
  have size : filter.hash.length = 32 := by
    rw [named]
    exact id.property
  have nonempty : (!filter.hash.isEmpty) = true := by
    cases same : filter.hash with
    | nil => simp [same] at size
    | cons first rest => rfl
  have checked : Job.run answer (Wallet.Handler.ensure (ι := ι) (filter.hash.length = 32)
      (Wallet.Handler.invalid "transaction ID has invalid length")).run store node =
        ⟨.ok (), [], store, node⟩ := by
    simp only [Wallet.Handler.ensure, size, decide_true, if_true]
    rfl
  have shown : Hex.encode filter.hash.reverse = id.display := by
    rw [named]
    rfl
  have asked : Job.run answer (Wallet.Handler.request (ι := ι) (Wallet.txCall id.display)
      TxReply.ofJson?).run store node =
        ⟨.ok ⟨Hex.encode data, height⟩, [], store, node⟩ :=
    Wallet.Handler.requestRun told (TxReply.ofToJson bounded)
  have decoded : Job.run answer (Wallet.Handler.nodeHex (ι := ι) (Hex.encode data)).run store node =
      ⟨.ok data, [], store, node⟩ := by
    rw [Wallet.Handler.nodeHex, Hex.decodeEncoded]
    rfl
  unfold Wallet.getTransaction Wallet.transaction
  rw [if_pos nonempty, Wallet.Handler.thenRun _ checked, shown, Wallet.Handler.thenRun _ asked,
    Wallet.Handler.thenRun _ decoded]
  rfl

end

theorem everyTxFound {ι : Type} (overflow : Unsigned.Overflow) (requests : List Request)
    (ready : requests.any Request.starts = true)
    (bounded : ∀ block ∈ (fresh.run overflow requests).active.blocks, block.height < 2 ^ 63) :
    let chain := fresh.run overflow requests
    let active := chain.active.blocks
    let lookup (text : String) (others : List Json) :=
      (answer ⟨"getrawtransaction", .text text :: others⟩ chain).1
    (∀ text others, text.length = 64 → (∀ c ∈ text.toList, Hex.isDigit c = true) →
      ∃ id : Bytes32, Hex.decode text = .ok id.val.reverse ∧
        ((∃ json, lookup text others = .ok json) ↔ ∃ block ∈ active, block.Holds id) ∧
        (∀ json, lookup text others = .ok json → ∃ block ∈ active, ∃ tx ∈ block.transactions,
          ∃ hex, TxReply.ofJson? json = some ⟨hex, block.height⟩ ∧ Hex.decode hex = .ok tx.data ∧
            BlockTx.ofBytes tx.data = .ok ⟨id, tx.data⟩ ∧
            ∀ other ∈ active, other.Holds id → block.height ≤ other.height) ∧
        ∀ error, lookup text others = .error error → error.code? = some (-5)) ∧
    ∀ params json, chain.getBlock params = .ok json →
      ∃ block, Node.blockOfReply (.ok json) = .ok (some block) ∧
        ∀ tx ∈ block.transactions, ∃ data height, height ≤ block.height ∧
          BlockTx.ofBytes data = .ok ⟨tx.id, data⟩ ∧
          (∀ others, lookup tx.id.display others =
            .ok (TxReply.toJson ⟨Hex.encode data, height⟩)) ∧
          ∀ (filter : Wallet.TxFilter) (store : Store), filter.hash = tx.id.val →
            Job.run answer (Wallet.getTransaction (ι := ι) filter).run store chain =
              ⟨.ok ⟨data, height⟩, [], store, chain⟩ := by
  intro chain active lookup
  have valid : chain.Valid := runValid freshValid overflow requests
  have isReady : chain.isReset = true := (runReady overflow fresh requests).trans ready
  have reply : ∀ text others, lookup text others = chain.getRawTransaction (.text text :: others) :=
    fun text others => congrArg Prod.fst (answerLookup chain _)
  constructor
  · intro text others size digits
    obtain ⟨whole, id, decoded, lower⟩ := namesId size digits
    refine ⟨id, decoded, ?_⟩
    rw [reply]
    rcases lookedUp valid isReady bounded whole lower with
      ⟨block, tx, found, told⟩ | ⟨missed, told⟩
    · rw [told]
      refine ⟨⟨fun _ => ⟨block, found.active, lowestHolds valid found⟩, fun _ => ⟨_, rfl⟩⟩, ?_,
        nofun⟩
      intro json same
      cases same
      exact ⟨block, found.active, tx, found.member, _, TxReply.ofToJson (bounded block found.active),
        Hex.decodeEncoded _, found.parsed, found.lowest⟩
    · rw [told]
      refine ⟨⟨nofun, fun h => ?_⟩, nofun, ?_⟩
      · obtain ⟨block, there, holds⟩ := h
        exact absurd holds (missed block there)
      · intro error same
        cases same
        rfl
  · intro params json served
    obtain ⟨block, there, rfl⟩ := getBlockServes served
    refine ⟨block, writtenBlock (valid.sound.wellFormed block there), fun tx member => ?_⟩
    obtain ⟨lowest, first, found, low, told⟩ := memberFound valid isReady bounded there member
    have lookups : ∀ others, lookup tx.id.display others =
        .ok (TxReply.toJson ⟨Hex.encode first.data, lowest.height⟩) :=
      fun others => (reply _ others).trans (told others)
    refine ⟨first.data, lowest.height, low, found.parsed, lookups, fun filter store named => ?_⟩
    have stays : (answer (Wallet.txCall tx.id.display) chain).2 = chain := by
      rw [Wallet.txCall, answerLookup]
    exact transactionRun (bounded lowest found.active) (Prod.ext (lookups [.nat 1]) stays) named

def twoInSecond : List Request :=
  [.reset 1 "c2d6d0b4" "regtest", .stageFiller 1 0 2, .stageTx 2 (Filler.coinbase 700), .commit 2]

theorem bothFound :
    let chain := fresh.run .ends twoInSecond
    twoInSecond.any Request.starts = true ∧
    (∀ block ∈ chain.active.blocks, block.height < 2 ^ 63) ∧
    ∃ block, chain.served? 2 = some block ∧ block.transactions.length = 2 ∧
      ∀ tx ∈ block.transactions, ∃ data height, height ≤ 2 ∧
        BlockTx.ofBytes data = .ok ⟨tx.id, data⟩ ∧ ∀ store : Store,
          Job.run answer (Wallet.getTransaction (ι := Empty) ⟨none, 0, tx.id.val⟩).run store chain =
            ⟨.ok ⟨data, height⟩, [], store, chain⟩ := by
  intro chain
  have ready : twoInSecond.any Request.starts = true := by decide
  have heights : (fresh.run .ends twoInSecond).active.blocks.map Block.height = [1, 2] := by rfl
  have bounded : ∀ block ∈ (fresh.run .ends twoInSecond).active.blocks, block.height < 2 ^ 63 := by
    intro block member
    have listed : block.height ∈ [1, 2] := heights ▸ List.mem_map_of_mem member
    simp only [List.mem_cons, List.not_mem_nil, or_false] at listed
    omega
  have present : ((fresh.run .ends twoInSecond).served? 2).map (·.transactions.length) =
      some 2 := by rfl
  obtain ⟨block, served, count⟩ := Option.map_eq_some_iff.mp present
  have valid := runValid freshValid .ends twoInSecond
  have small : 2 ≤ Unsigned.greatest64 := by decide
  have reply : (fresh.run .ends twoInSecond).getBlock [.text (toString 2), .nat 0] = _ :=
    blockReply small
  rw [served] at reply
  obtain ⟨_, found⟩ := everyTxFound (ι := Empty) .ends twoInSecond ready bounded
  obtain ⟨other, read, lookups⟩ := found _ _ reply
  cases (writtenBlock (validServed valid served)).symm.trans read
  refine ⟨ready, bounded, block, served, count, fun tx member => ?_⟩
  obtain ⟨data, height, low, parsed, _, runs⟩ := lookups tx member
  rw [servedHeight valid served] at low
  exact ⟨data, height, low, parsed, fun store => runs ⟨none, 0, tx.id.val⟩ store rfl⟩

end SimChain

end WalletProxy
