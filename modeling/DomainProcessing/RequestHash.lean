import DomainProcessing.Normalization

namespace DomainProcessing

/-- `"\\u%04x"` -/
def unicodeEscape (n : Nat) : List Char :=
  ['\\', 'u', (n / 4096 % 16).digitChar, (n / 256 % 16).digitChar, (n / 16 % 16).digitChar,
    (n % 16).digitChar]

/-- A character as `json.dumps` writes it; beyond the basic plane it is a pair
of surrogates. -/
def jsonChar (c : Char) : List Char :=
  let n := c.toNat
  if c = '\\' then ['\\', '\\']
  else if c = '"' then ['\\', '"']
  else if n = 8 then ['\\', 'b']
  else if n = 12 then ['\\', 'f']
  else if c = '\n' then ['\\', 'n']
  else if c = '\r' then ['\\', 'r']
  else if c = '\t' then ['\\', 't']
  else if 32 ≤ n ∧ n ≤ 126 then [c]
  else if n < 65536 then unicodeEscape n
  else unicodeEscape (0xd800 + (n - 65536) / 1024) ++ unicodeEscape (0xdc00 + (n - 65536) % 1024)

def jsonString (s : String) : List Char := '"' :: s.toList.flatMap jsonChar ++ ['"']

/-- `json.dumps({"domains": normalized}, separators=(",", ":"), sort_keys=True)` of
the sorted values. -/
def canonicalPayload (text : PythonText) (domains : List String) : String :=
  let normalized := domains.map fun d => (normalizeDomain text d).value
  let sorted := normalized.mergeSort fun a b => decide (a ≤ b)
  "\x7b\"domains\":[" ++ String.ofList ([','].intercalate (sorted.map jsonString)) ++ "]\x7d"

def computeRequestHash (text : PythonText) (sha256 : String → String) (domains : List String) :
    String :=
  sha256 (canonicalPayload text domains)

end DomainProcessing
