import MollisRuntime.Python.Values

/-!
The text that json.dumps writes: ASCII only, with its default separators. How a
float is written is left to `floatRepr`.
-/
namespace MollisRuntime.Python.Json

def hexDigits (n : ℕ) : List Char :=
  [n / 4096 % 16, n / 256 % 16, n / 16 % 16, n % 16].map Nat.digitChar

def unicodeEscape (n : ℕ) : List Char := '\\' :: 'u' :: hexDigits n

/-- A character beyond the basic plane is written as a surrogate pair. -/
def escape (c : Char) : List Char :=
  match c with
  | '"' => ['\\', '"']
  | '\\' => ['\\', '\\']
  | '\n' => ['\\', 'n']
  | '\r' => ['\\', 'r']
  | '\t' => ['\\', 't']
  | '\x08' => ['\\', 'b']
  | '\x0c' => ['\\', 'f']
  | c =>
    if ' ' ≤ c ∧ c ≤ '~' then [c]
    else if c.toNat < 0x10000 then unicodeEscape c.toNat
    else unicodeEscape (0xd800 + (c.toNat - 0x10000) / 1024) ++
      unicodeEscape (0xdc00 + (c.toNat - 0x10000) % 1024)

def quoted (s : String) : List Char := '"' :: (s.toList.flatMap escape ++ ['"'])

variable (floatRepr : ℚ → String)

mutual
/-- What json.dumps refuses has no text. -/
def text : Value → List Char
  | .none => "null".toList
  | .bool b => (if b then "true" else "false").toList
  | .int n => (toString n).toList
  | .float q => (floatRepr q).toList
  | .infinity negative => (if negative then "-Infinity" else "Infinity").toList
  | .str s => quoted s
  | .list xs => '[' :: (items xs ++ [']'])
  | .dict entries => '\x7b' :: (members entries ++ ['\x7d'])
  | .enum _ _ => []
  | .object _ => []

def items : List Value → List Char
  | [] => []
  | [v] => text v
  | v :: w :: rest => text v ++ ", ".toList ++ items (w :: rest)

def members : List (String × Value) → List Char
  | [] => []
  | [(k, v)] => quoted k ++ ": ".toList ++ text v
  | (k, v) :: e :: rest => quoted k ++ ": ".toList ++ text v ++ ", ".toList ++ members (e :: rest)
end

def dumps (v : Value) : Except PyError String := do
  let v ← jsonPayload v
  return String.ofList (text floatRepr v)

theorem dumps_ok {v : Value} (h : v.isJson = true) :
    dumps floatRepr v = .ok (String.ofList (text floatRepr v)) := by
  rw [dumps, jsonPayload_ok h]
  rfl

example :
    dumps (fun _ => "0.5") (.dict [("é\n", .list [.int (-1), .none]), ("x", .float (1 / 2))]) =
      .ok "\x7b\"\\u00e9\\n\": [-1, null], \"x\": 0.5\x7d" := by
  decide

end MollisRuntime.Python.Json
