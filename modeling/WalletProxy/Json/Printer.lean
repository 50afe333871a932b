import WalletProxy.Json.Basic
import WalletProxy.Hex

/-! The compact text of a JSON value, without blanks. -/
namespace WalletProxy.Json

def quotedChar (c : Char) : String :=
  if c = '"' then "\\\""
  else if c = '\\' then "\\\\"
  else if c = '\n' then "\\n"
  else if c = '\r' then "\\r"
  else if c = '\t' then "\\t"
  else if c.toNat = 8 then "\\b"
  else if c.toNat = 12 then "\\f"
  else if c.toNat < 32 then "\\u00" ++ Hex.encode [UInt8.ofNat c.toNat]
  else String.singleton c

def quoted (text : String) : String :=
  (text.foldl (fun done c => done ++ quotedChar c) "\"").push '"'

mutual

def printAfter (done : String) : Json → String
  | null => done ++ "null"
  | bool true => done ++ "true"
  | bool false => done ++ "false"
  | number value => done ++ value.text
  | text value => done ++ quoted value
  | list [] => done ++ "[]"
  | list (item :: rest) => (printItems (printAfter (done.push '[') item) rest).push ']'
  | object [] => done ++ "\x7b\x7d"
  | object ((name, value) :: rest) =>
      (printMembers (printAfter ((done.push '\x7b') ++ quoted name ++ ":") value) rest).push '\x7d'

def printItems (done : String) : List Json → String
  | [] => done
  | item :: rest => printItems (printAfter (done.push ',') item) rest

def printMembers (done : String) : List (String × Json) → String
  | [] => done
  | (name, value) :: rest =>
      printMembers (printAfter ((done.push ',') ++ quoted name ++ ":") value) rest

end

def print (json : Json) : String := printAfter "" json

end WalletProxy.Json
