import OtelFleet.Lib.Strconv
import OtelFleet.Lib.Yaml
import OtelFleet.Pipelines.Catalog

-- A violation that the schema validator reports. `missing` holds the required properties that are
-- not there, and is empty for every other kind of violation.
structure ValidationError where
  instanceLocation : List String
  missing : List String
  message : String
  causes : List ValidationError

inductive SchemaVerdict where
  | valid
  | invalid (e : ValidationError)
  | failed (message : String)

-- What the code calls and the repository does not contain.
class Runtime where
  -- The runes that strconv prints as they are.
  isPrint : Char → Bool
  -- strconv.ParseFloat on a number literal, without a result when it is out of range.
  parseFloat : Json.Number → Option Json.Float64
  -- The encoder of gopkg.in/yaml.v3, at an indentation of two.
  marshalYAML : Yaml.Node → String
  -- The JSON Schema validator.
  validateSchema : Catalog.Schema → Json.Value → SchemaVerdict
  -- `otelcol validate`, if the binary is there: the output of a failed run on a config.
  otelcolValidate : Option (String → Option String)
  sha256 : String → List UInt8

namespace Yaml.Node

-- Whether the encoder quotes a string: it would resolve to another type, or it holds characters that
-- mean something else.
def quotes (s : String) : Bool :=
  ["", "null", "true", "false", "yes", "no", "on", "off", "y", "n"].contains s ||
  s.toList.all (fun c => c.isDigit || "+-.eE_".toList.contains c) && s.toList.count '.' ≤ 1 ||
  !(s.toList.head?.any fun c => c.isAlphanum || c == '_' || c == '/') ||
  s.toList.any (fun c => c.toNat < 0x20 || "#:,\x7b\x7d".toList.contains c && s.toList.contains ' ')

def scalar (s : String) : String :=
  if quotes s then Strconv.quote (fun _ => true) s else s

def inline? : Node → Option String
  | plain text => some text
  | str s => some (scalar s)
  | map [] => some "\x7b\x7d"
  | seq _ [] => some "[]"
  | seq true items => some ("[" ++ ", ".intercalate (items.filterMap str?) ++ "]")
  | _ => none

mutual

def lines : Node → List String
  | plain text => [text]
  | str s => [scalar s]
  | seq _ items => linesItems items
  | map entries => linesEntries entries

def linesItems : List Node → List String
  | [] => []
  | n :: ns =>
    (match n.lines with
      | [] => ["-"]
      | l :: ls => ("- " ++ l) :: ls.map ("  " ++ ·)) ++ linesItems ns

def linesEntries : Entries → List String
  | [] => []
  | (k, n) :: es =>
    (match n.inline? with
      | some text => [k ++ ": " ++ text]
      | none => (k ++ ":") :: n.lines.map ("  " ++ ·)) ++ linesEntries es

end

end Yaml.Node

-- A runtime to evaluate the model with. It encodes documents whose strings are plain ones, accepts
-- every config, and has no collector binary.
@[reducible]
def Runtime.sample : Runtime where
  isPrint c := 0x20 ≤ c.toNat && c.toNat != 0x7f
  parseFloat n := some (.ofNumber n)
  marshalYAML n := String.join (n.lines.map (· ++ "\n"))
  validateSchema _ _ := .valid
  otelcolValidate := none
  sha256 s := s.toList.map (UInt8.ofNat ·.toNat)

theorem Runtime.sample_marshalYAML_ne {t u : Yaml.Node} (k : Nat)
    (hp : t.lines.take k = u.lines.take k) (hs : t.lines.drop (k + 1) = u.lines.drop (k + 1))
    {l m : String} (hl : t.lines[k]? = some l) (hm : u.lines[k]? = some m) (hne : l ≠ m) :
    Runtime.sample.marshalYAML t ≠ Runtime.sample.marshalYAML u := by
  have split : ∀ (ls : List String) x, ls[k]? = some x → ls = ls.take k ++ x :: ls.drop (k + 1) := by
    intro ls x hx
    have ⟨hk, hx⟩ := List.getElem?_eq_some_iff.mp hx
    rw [← hx, List.getElem_cons_drop, List.take_append_drop]
  intro h
  have h : String.join (t.lines.map (· ++ "\n")) = String.join (u.lines.map (· ++ "\n")) := h
  rw [split _ l hl, split _ m hm, hp, hs] at h
  simp only [List.map_append, List.map_cons, String.join_append, String.join_cons,
    String.append_assoc, String.append_right_inj, String.append_left_inj] at h
  exact hne h
