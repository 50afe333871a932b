/-! Spans of time in milliseconds, and how they are shown: in seconds, with the decimals that are
needed, or in milliseconds below one second. -/
namespace WalletProxy.Duration

def second : Nat := 1000
def minute : Nat := 60 * second

def decimals (digits : List Char) : List Char :=
  match (digits.reverse.dropWhile (· = '0')).reverse with
  | [] => []
  | left => '.' :: left

def shown (span : Nat) : String :=
  if span = 0 then "0ns"
  else if span < second then s!"{span}ms"
  else
    let thousandths := (toString (second + span % second)).toList.drop 1
    s!"{span / second}{String.ofList (decimals thousandths)}s"

end WalletProxy.Duration
