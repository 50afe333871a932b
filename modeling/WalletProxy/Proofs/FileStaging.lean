import WalletProxy.Proofs.FillerBlocks
import WalletProxy.Proofs.ProxyRun
import WalletProxy.Proofs.StagingArea

/-! Blocks staged from a file. A file has one text on each line; what else stands in it are blanks
around the texts, the return before a line feed among them, and lines of nothing but blanks. Staging
from it comes to the same as staging the texts from a stream, as long as all of them are hexadecimal:
it reads all of them before it stages any, so that one that is not leaves nothing staged, where a
stream has staged the blocks that stand before it. -/
namespace WalletProxy

namespace Text

theorem trimAround {before after : List Char} (ahead : ∀ c ∈ before, isBlank c = true)
    (behind : ∀ c ∈ after, isBlank c = true) (text : List Char) :
    trim (before ++ text ++ after) = trim text := by
  have backwards : ∀ c ∈ after.reverse, isBlank c = true := fun c member =>
    behind c (List.mem_reverse.mp member)
  rw [trim, trim, List.append_assoc, List.dropWhile_append_of_pos ahead, List.dropWhile_append]
  split
  · rename_i empty
    have none : (after ++ []).dropWhile isBlank = [] := List.dropWhile_append_of_pos behind
    rw [List.append_nil] at none
    rw [none, List.isEmpty_iff.mp empty]
  · rw [List.reverse_append, List.dropWhile_append_of_pos backwards]

theorem trimBlank {line : List Char} (blank : ∀ c ∈ line, isBlank c = true) : trim line = [] := by
  have around := trimAround blank (List.forall_mem_nil _) []
  rwa [List.append_nil, List.append_nil] at around

theorem linesAlone {line : List Char} (single : '\n' ∉ line) : lines line = [line] := by
  induction line with
  | nil => rfl
  | cons c rest ih =>
    obtain ⟨other, later⟩ := List.ne_and_not_mem_of_not_mem_cons single
    rw [lines, if_neg (Ne.symm other), ih later]
    rfl

theorem linesAhead {line : List Char} (single : '\n' ∉ line) (rest : List Char) :
    lines (line ++ '\n' :: rest) = line :: lines rest := by
  induction line with
  | nil => exact if_pos rfl
  | cons c others ih =>
    obtain ⟨other, later⟩ := List.ne_and_not_mem_of_not_mem_cons single
    rw [List.cons_append, lines, if_neg (Ne.symm other), ih later]
    rfl

theorem linesJoined {all : List (List Char)} (some : all ≠ [])
    (single : ∀ line ∈ all, '\n' ∉ line) : lines (List.intercalate ['\n'] all) = all := by
  induction all with
  | nil => exact absurd rfl some
  | cons line rest ih =>
    obtain ⟨own, others⟩ := List.forall_mem_cons.mp single
    cases rest with
    | nil => rw [List.intercalate_singleton, linesAlone own]
    | cons next rest =>
      rw [List.intercalate_cons_cons, List.append_assoc, List.singleton_append, linesAhead own,
        ih (List.cons_ne_nil _ _) others]

end Text

namespace SimFile

inductive Laid : List String → List (List Char) → Prop where
  | nothing : Laid [] []
  | blank {texts : List String} {line : List Char} {lines : List (List Char)}
      (empty : ∀ c ∈ line, Text.isBlank c = true) (rest : Laid texts lines) :
      Laid texts (line :: lines)
  | text {text : String} {texts : List String} {before after : List Char}
      {lines : List (List Char)} (ahead : ∀ c ∈ before, Text.isBlank c = true)
      (behind : ∀ c ∈ after, Text.isBlank c = true) (rest : Laid texts lines) :
      Laid (text :: texts) ((before ++ text.toList ++ after) :: lines)

def joined (lines : List (List Char)) : String := String.ofList (List.intercalate ['\n'] lines)

section
variable {texts : List String} {lines : List (List Char)}

theorem entriesLaid (laid : Laid texts lines) (single : ∀ line ∈ lines, '\n' ∉ line)
    (shown : ∀ text ∈ texts, Text.trimmed text ≠ "") :
    entries (joined lines) = texts.map Text.trimmed := by
  have kept : ((lines.map Text.trim).filterMap fun line =>
      if line.isEmpty then none else some (String.ofList line)) = texts.map Text.trimmed := by
    clear single
    induction laid with
    | nothing => rfl
    | blank empty rest ih =>
      rw [List.map_cons, Text.trimBlank empty]
      exact ih shown
    | @text text texts before after lines ahead behind rest ih =>
      obtain ⟨own, others⟩ := List.forall_mem_cons.mp shown
      have some : (Text.trim text.toList).isEmpty = false := by
        cases trimmed : Text.trim text.toList with
        | nil => exact absurd (congrArg String.ofList trimmed) own
        | cons c rest => rfl
      rw [List.map_cons, Text.trimAround ahead behind, List.filterMap_cons]
      simp only [some, Bool.false_eq_true, if_false, ih others]
      rfl
  cases lines with
  | nil =>
    cases laid
    rfl
  | cons line rest =>
    rw [entries, joined, String.toList_ofList, Text.linesJoined (List.cons_ne_nil _ _) single]
    exact kept

end

theorem missingPageUnread : ¬ Hex.Valid missingPage := by decide

theorem readEntriesIff {entries : List String} {contents : List Bytes} :
    readEntries entries = .ok contents ↔ entries.map Hex.decode = contents.map .ok := by
  induction entries generalizing contents with
  | nil =>
    constructor
    · intro read
      cases read
      rfl
    · intro read
      cases List.map_eq_nil_iff.mp read.symm
      rfl
  | cons entry rest ih =>
    by_cases missing : entry = missingPage
    · subst missing
      rw [readEntries, if_pos rfl]
      refine iff_of_false nofun fun read => missingPageUnread (Hex.decodesIff.mp ?_)
      obtain ⟨bytes, _, _, own, _⟩ := List.map_eq_cons_iff.mp read.symm
      exact ⟨bytes, own.symm⟩
    · rw [readEntries, if_neg missing]
      cases decoded : Hex.decode entry with
      | error fault =>
        refine iff_of_false nofun fun read => ?_
        obtain ⟨bytes, _, _, own, _⟩ := List.map_eq_cons_iff.mp read.symm
        cases own.trans decoded
      | ok bytes =>
        dsimp only
        rw [Results.mapOk]
        constructor
        · rintro ⟨others, read, rfl⟩
          rw [List.map_cons, List.map_cons, decoded, ih.mp read]
        · intro read
          obtain ⟨own, others, rfl, first, later⟩ := List.map_eq_cons_iff.mp read.symm
          cases first.trans decoded
          exact ⟨others, ih.mpr later.symm, rfl⟩

theorem validRead {entries : List String} (valid : ∀ entry ∈ entries, Hex.Valid entry) :
    ∃ contents : List Bytes, entries.map Hex.decode = contents.map .ok := by
  induction entries with
  | nil => exact ⟨[], rfl⟩
  | cons entry rest ih =>
    obtain ⟨own, others⟩ := List.forall_mem_cons.mp valid
    obtain ⟨bytes, decoded⟩ := Hex.decodesIff.mpr own
    obtain ⟨contents, later⟩ := ih others
    exact ⟨bytes :: contents, by rw [List.map_cons, List.map_cons, decoded, later]⟩

theorem invalidUnread {entries : List String} {entry : String} (member : entry ∈ entries)
    (invalid : ¬ Hex.Valid entry) : ∃ fault, readEntries entries = .error fault := by
  cases read : readEntries entries with
  | error fault => exact ⟨fault, rfl⟩
  | ok contents =>
    have decoded : Hex.decode entry ∈ contents.map Except.ok := by
      rw [← readEntriesIff.mp read]
      exact List.mem_map_of_mem member
    obtain ⟨bytes, _, own⟩ := List.mem_map.mp decoded
    exact absurd (Hex.decodesIff.mp ⟨bytes, own.symm⟩) invalid

end SimFile

namespace SimChain

theorem stageBlocksOk {chain : SimChain} (ready : chain.isReset = true) {contents : List Bytes} :
    (chain.stageBlocks contents).1 = .ok () ↔
      ∀ bytes ∈ contents, ∃ block, Block.ofBytes bytes = .ok block := by
  induction contents generalizing chain with
  | nil => exact iff_of_true rfl (List.forall_mem_nil _)
  | cons bytes rest ih =>
    rw [List.forall_mem_cons]
    cases read : Block.ofBytes bytes with
    | error fault =>
      rw [stageBlocks, stageBlockRefuses ready read]
      constructor
      · intro ok
        cases ok
      · rintro ⟨⟨block, accepted⟩, _⟩
        cases accepted
    | ok block =>
      rw [stageBlocks, stageBlockAdds ready read]
      have others : ((chain.withStaged [block] []).stageBlocks rest).1 = .ok () ↔
          ∀ bytes ∈ rest, ∃ block, Block.ofBytes bytes = .ok block := ih ready
      exact others.trans (and_iff_right ⟨block, rfl⟩).symm

end SimChain

namespace SimProxy

def staging (proxy : SimProxy) (blocks : List Block) : SimProxy :=
  { proxy with node := proxy.node.withStaged blocks [] }

def readText (text : String) : Except Status Block :=
  match Hex.decode (Text.trimmed text) with
  | .error fault => .error (Wallet.Handler.invalid s!"invalid block hex. {fault.message}")
  | .ok bytes => ((Block.ofBytes bytes).mapError SimError.block).mapError SimError.status

section
variable {proxy : SimProxy} (ready : proxy.node.isReset = true) {text : String}
  {texts : List String}
include ready

theorem stageTextsStops {status : Status} (bad : readText text = .error status) :
    proxy.stageTexts (text :: texts) = (.error status, proxy) := by
  unfold readText Text.trimmed at bad
  rw [stageTexts]
  cases decoded : Hex.decode (String.ofList (Text.trim text.toList)) with
  | error fault =>
    rw [decoded] at bad
    cases bad
    rfl
  | ok bytes =>
    simp only [decoded] at bad
    cases read : Block.ofBytes bytes with
    | error fault =>
      rw [read] at bad
      cases bad
      simp only [onChain, SimChain.stageBlockRefuses ready read]
      rfl
    | ok block =>
      rw [read] at bad
      cases bad

theorem stageTextsGoesOn {block : Block} (good : readText text = .ok block) :
    proxy.stageTexts (text :: texts) = (proxy.staging [block]).stageTexts texts := by
  unfold readText Text.trimmed at good
  rw [stageTexts]
  cases decoded : Hex.decode (String.ofList (Text.trim text.toList)) with
  | error fault =>
    rw [decoded] at good
    cases good
  | ok bytes =>
    rw [decoded] at good
    have read := Results.mapErrorOk.mp (Results.mapErrorOk.mp good)
    simp only [onChain, SimChain.stageBlockAdds ready read]
    rfl

theorem stageTextsUpTo (bad : ∃ text ∈ texts, ∃ status, readText text = .error status) :
    ∃ before text after blocks status, texts = before ++ text :: after ∧
      before.map readText = blocks.map .ok ∧ readText text = .error status ∧
      proxy.stageTexts texts = (.error status, proxy.staging blocks) := by
  induction texts generalizing proxy with
  | nil =>
    obtain ⟨_, member, _⟩ := bad
    contradiction
  | cons first rest ih =>
    cases own : readText first with
    | error status =>
      refine ⟨[], first, rest, [], status, rfl, rfl, own, ?_⟩
      rw [stageTextsStops ready own, staging, SimChain.withStagedNone]
    | ok block =>
      have later : ∃ text ∈ rest, ∃ status, readText text = .error status := by
        obtain ⟨text, member, status, fault⟩ := bad
        rcases List.mem_cons.mp member with rfl | inside
        · cases own.symm.trans fault
        · exact ⟨text, inside, status, fault⟩
      have next : (proxy.staging [block]).node.isReset = true := ready
      obtain ⟨before, text, after, blocks, status, rfl, read, fault, ran⟩ := ih next later
      refine ⟨first :: before, text, after, block :: blocks, status, rfl, ?_, fault, ?_⟩
      · rw [List.map_cons, List.map_cons, own, read]
      · rw [stageTextsGoesOn ready own, ran, staging, staging, SimChain.withStagedTwice]
        rfl

theorem fileStagesAsStream {lines : List (List Char)} (laid : SimFile.Laid texts lines)
    (single : ∀ line ∈ lines, '\n' ∉ line) (shown : ∀ text ∈ texts, Text.trimmed text ≠ "") :
    let file := proxy.stageFile (.ok (SimFile.joined lines))
    let stream := proxy.stageTexts texts
    ((∀ text ∈ texts, Hex.Valid (Text.trimmed text)) →
      file = stream ∧ ∃ contents, (texts.map Text.trimmed).map Hex.decode = contents.map .ok ∧
        stream.2 = proxy.staging (SimChain.readable contents) ∧
        (stream.1 = .ok () ↔ ∀ bytes ∈ contents, ∃ block, Block.ofBytes bytes = .ok block)) ∧
    ((∃ text ∈ texts, ¬ Hex.Valid (Text.trimmed text)) →
      (∃ status, file = (.error status, proxy)) ∧
      ∃ before text after blocks status, texts = before ++ text :: after ∧
        before.map readText = blocks.map .ok ∧ readText text = .error status ∧
        stream = (.error status, proxy.staging blocks)) := by
  have entries := SimFile.entriesLaid laid single shown
  refine ⟨fun valid => ?_, fun invalid => ⟨?_, ?_⟩⟩
  · obtain ⟨contents, decoded⟩ := SimFile.validRead (List.forall_mem_map.mpr valid)
    have read : SimFile.ofFetched (.ok (SimFile.joined lines)) = .ok contents := by
      rw [SimFile.ofFetched, SimFile.read, entries]
      exact SimFile.readEntriesIff.mpr decoded
    have stream := stageTextsRead proxy decoded
    refine ⟨?_, contents, decoded, ?_, ?_⟩
    · rw [stream]
      simp [stageFile, onChain, withFile, ready, read]
    · rw [stream, staging, ← SimChain.stageBlocksAdds ready contents]
      rfl
    · rw [stream, ← SimChain.stageBlocksOk ready]
      exact Results.mapErrorOk
  · obtain ⟨text, member, bad⟩ := invalid
    obtain ⟨fault, unread⟩ := SimFile.invalidUnread (List.mem_map_of_mem member) bad
    have read : SimFile.ofFetched (.ok (SimFile.joined lines)) = .error fault := by
      rw [SimFile.ofFetched, SimFile.read, entries, unread]
    refine ⟨fault.status, ?_⟩
    simp only [stageFile, onChain, withFile, ready, read, Bool.not_true, Bool.false_eq_true,
      if_false]
    rfl
  · obtain ⟨text, member, bad⟩ := invalid
    refine stageTextsUpTo ready ⟨text, member, ?_⟩
    cases decoded : Hex.decode (Text.trimmed text) with
    | error fault => exact ⟨_, by rw [readText, decoded]⟩
    | ok bytes => exact absurd (Hex.decodesIff.mp ⟨bytes, decoded⟩) bad

end

theorem writtenText {block : Block} (whole : Block.ofBytes block.write = .ok block) :
    let text := Hex.encode block.write
    '\n' ∉ text.toList ∧ Text.trimmed text = text ∧ text ≠ "" ∧ readText text = .ok block := by
  intro text
  have unblank : ∀ c ∈ text.toList, Text.isBlank c = false := Hex.encodedUnblank block.write
  have trimmed : Text.trimmed text = text := by
    rw [Text.trimmed, Text.trimKeeps unblank, String.ofList_toList]
  have decoded : Hex.decode text = .ok block.write := Hex.decodeEncoded block.write
  refine ⟨fun member => ?_, trimmed, fun empty => ?_, ?_⟩
  · have feed : Text.isBlank '\n' ≠ false := by decide
    exact feed (unblank _ member)
  · rw [empty] at decoded
    have nothing : Hex.decode "" = .ok [] := rfl
    rw [← Except.ok.inj (nothing.symm.trans decoded)] at whole
    cases whole
  · simp only [readText, trimmed, decoded, whole]
    rfl

/-- Two texts with blanks around them and between them. -/
def spacedLines (text other : String) : List (List Char) :=
  [[' ', '\t'] ++ text.toList ++ ['\r'], ['\r'], [] ++ other.toList ++ [' '], []]

def brokenLines (text other : String) : List (List Char) :=
  [[] ++ text.toList ++ [], [] ++ "0g".toList ++ [], [] ++ other.toList ++ []]

theorem linesLaid (text other : String) : SimFile.Laid [text, other] (spacedLines text other) ∧
    SimFile.Laid [text, "0g", other] (brokenLines text other) := by
  have blanks : ∀ chars : List Char, chars.all Text.isBlank = true →
      ∀ c ∈ chars, Text.isBlank c = true := fun _ all => List.all_eq_true.mp all
  constructor
  · exact .text (blanks _ rfl) (blanks _ rfl) (.blank (blanks _ rfl)
      (.text (blanks _ rfl) (blanks _ rfl) (.blank (blanks _ rfl) .nothing)))
  · exact .text (blanks _ rfl) (blanks _ rfl) (.text (blanks _ rfl) (blanks _ rfl)
      (.text (blanks _ rfl) (blanks _ rfl) .nothing))

theorem linesSingle {text other : String} (unfed : '\n' ∉ text.toList)
    (otherUnfed : '\n' ∉ other.toList) :
    ∀ line ∈ spacedLines text other ++ brokenLines text other, '\n' ∉ line := by
  simp [spacedLines, brokenLines, unfed, otherUnfed]

theorem stopsAtSecond {one bad text : String} {rest before after : List String} {block : Block}
    {blocks : List Block} {status : Status} (split : one :: bad :: rest = before ++ text :: after)
    (read : readText one = .ok block) (stray : (readText bad).toOption = none)
    (made : before.map readText = blocks.map .ok) (fault : readText text = .error status) :
    blocks = [block] := by
  cases before with
  | nil =>
    cases (List.cons.inj split).1
    cases read.symm.trans fault
  | cons first more =>
    obtain ⟨rfl, others⟩ := List.cons.inj split
    rw [List.map_cons, read] at made
    obtain ⟨_, rest, rfl, own, later⟩ := List.map_eq_cons_iff.mp made.symm
    cases own
    cases more with
    | nil =>
      cases List.map_eq_nil_iff.mp later
      rfl
    | cons second onward =>
      obtain ⟨rfl, _⟩ := List.cons.inj others
      obtain ⟨_, _, _, accepted, _⟩ := List.map_eq_cons_iff.mp later
      rw [← accepted] at stray
      cases stray

/- The second file has a line that is no hexadecimal text: the file leaves nothing staged, and the
stream what stands before that line. -/
theorem fillersFromFile : ∃ first second, Filler.block 0 5 = .ok first ∧
    Filler.block 0 6 = .ok second ∧
    let proxy : SimProxy := ((fresh 1 1000 2000).reset 1 "c2d6d0b4" "regtest").2
    let text := Hex.encode first.write
    let other := Hex.encode second.write
    let lines := spacedLines text other
    let broken := brokenLines text other
    proxy.node.isReset = true ∧ SimFile.Laid [text, other] lines ∧
      SimFile.Laid [text, "0g", other] broken ∧ (∀ line ∈ lines ++ broken, '\n' ∉ line) ∧
      (∀ entry ∈ [text, "0g", other], Text.trimmed entry ≠ "") ∧
      proxy.stageFile (.ok (SimFile.joined lines)) = (.ok (), proxy.staging [first, second]) ∧
      proxy.stageTexts [text, other] = (.ok (), proxy.staging [first, second]) ∧
      (∃ status, proxy.stageFile (.ok (SimFile.joined broken)) = (.error status, proxy)) ∧
      ∃ status, proxy.stageTexts [text, "0g", other] = (.error status, proxy.staging [first]) := by
  have whole : ∀ height, Block.ofBytes (Filler.made 0 height).write = .ok (Filler.made 0 height) :=
    fun height => Block.ofBytesWrite (Filler.blockWellFormed (Filler.blockMade 0 height))
  refine ⟨Filler.made 0 5, Filler.made 0 6, Filler.blockMade 0 5, Filler.blockMade 0 6, ?_⟩
  have wholeFirst := whole 5
  have wholeSecond := whole 6
  generalize Filler.made 0 5 = first at wholeFirst ⊢
  generalize Filler.made 0 6 = second at wholeSecond ⊢
  intro proxy text other lines broken
  obtain ⟨unfed, trimmed, some, read⟩ := writtenText wholeFirst
  obtain ⟨otherUnfed, otherTrimmed, otherSome, _⟩ := writtenText wholeSecond
  have ready : proxy.node.isReset = true := rfl
  obtain ⟨laid, laidBroken⟩ := linesLaid text other
  have single := linesSingle unfed otherUnfed
  have shown : ∀ entry ∈ [text, "0g", other], Text.trimmed entry ≠ "" := by
    rw [List.forall_mem_cons, List.forall_mem_cons, List.forall_mem_singleton, trimmed,
      otherTrimmed]
    exact ⟨some, by decide, otherSome⟩
  have decoded : Hex.decode (Text.trimmed text) = .ok first.write := by
    rw [trimmed]
    exact Hex.decodeEncoded first.write
  have otherDecoded : Hex.decode (Text.trimmed other) = .ok second.write := by
    rw [otherTrimmed]
    exact Hex.decodeEncoded second.write
  obtain ⟨agree, _⟩ := fileStagesAsStream ready laid
    (fun line member => single line (List.mem_append_left _ member))
    (List.forall_mem_cons.mpr ⟨shown _ (by simp), List.forall_mem_singleton.mpr (shown _ (by simp))⟩)
  obtain ⟨same, contents, contained, staged, accepted⟩ := agree (List.forall_mem_cons.mpr
    ⟨Hex.decodesIff.mp ⟨_, decoded⟩, List.forall_mem_singleton.mpr
      (Hex.decodesIff.mp ⟨_, otherDecoded⟩)⟩)
  have written : [first.write, second.write] = contents := by
    rw [← List.map_inj_right fun _ _ => Except.ok.inj, ← contained]
    simp only [List.map_cons, List.map_nil, decoded, otherDecoded]
  have readable : SimChain.readable contents = [first, second] := by
    simp only [← written, SimChain.readable, wholeFirst, wholeSecond]
  have granted : (proxy.stageTexts [text, other]).1 = .ok () := by
    rw [accepted, ← written, List.forall_mem_cons, List.forall_mem_singleton]
    exact ⟨⟨first, wholeFirst⟩, second, wholeSecond⟩
  have stream : proxy.stageTexts [text, other] = (.ok (), proxy.staging [first, second]) :=
    Prod.ext granted (readable ▸ staged)
  obtain ⟨_, stops⟩ := fileStagesAsStream ready laidBroken
    (fun line member => single line (List.mem_append_right _ member)) shown
  obtain ⟨refused, before, bad, after, blocks, status, split, made, fault, left⟩ :=
    stops ⟨"0g", by simp, by decide⟩
  rw [stopsAtSecond split read rfl made fault] at left
  exact ⟨ready, laid, laidBroken, single, shown, same.trans stream, stream, refused, status, left⟩

end SimProxy

end WalletProxy
