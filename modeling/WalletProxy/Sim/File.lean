import WalletProxy.Sim.Chain
import WalletProxy.Text.Blank

/-! Files of blocks or transactions: one in hexadecimal on each line, with blank lines and blanks
around them passed over. -/
namespace WalletProxy.SimFile

def missingPage : String := "404: Not Found"

def entries (text : String) : List String :=
  ((Text.lines text.toList).map Text.trim).filterMap fun line =>
    if line.isEmpty then none else some (String.ofList line)

def readEntries : List String → Except SimError (List Bytes)
  | [] => .ok []
  | entry :: rest =>
      if entry = missingPage then .error (.sourceNotFound entry)
      else match Hex.decode entry with
        | .error fault => .error (.hex fault)
        | .ok bytes => (readEntries rest).map (bytes :: ·)

def read (text : String) : Except SimError (List Bytes) := readEntries (entries text)

def ofFetched (fetched : Except String String) : Except SimError (List Bytes) :=
  match fetched with
  | .error detail => .error (.fetch detail)
  | .ok text => read text

end WalletProxy.SimFile
