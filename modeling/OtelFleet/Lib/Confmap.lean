import OtelFleet.Lib.Decimal
import OtelFleet.Lib.Yaml

-- How a collector reads its config: the YAML document is decoded, then its strings are expanded.
namespace Confmap

inductive Scalar where
  | null
  | bool (b : Bool)
  | number (q : ℚ)
  | str (s : String)
  | other (text : String)
deriving DecidableEq

inductive Conf where
  | scalar (s : Scalar)
  | seq (items : List Conf)
  | map (entries : List (Scalar × Conf))

-- The types that YAML gives to untagged scalars. Only the texts that an encoder writes for values
-- other than strings are settled here.
structure Resolution where
  resolve : String → Scalar
  null : resolve "null" = .null
  bool : ∀ b : Bool, resolve (if b then "true" else "false") = .bool b
  int : ∀ i : Int, resolve (Strconv.formatInt i) = .number i
  float : ∀ x : Json.Float64, resolve (Strconv.formatG x) = .number x.value

def Resolution.core : Resolution where
  resolve s :=
    match Strconv.parseDecimal s with
    | some q => .number q
    | none =>
      if s = "null" then .null
      else if s = "true" then .bool true
      else if s = "false" then .bool false
      else .str s
  null := rfl
  bool := by decide
  int i := by rw [Strconv.parseDecimal_formatInt]
  float x := by rw [Strconv.parseDecimal_formatG]

section Decode

variable (R : Resolution)

mutual

def decode : Yaml.Node → Conf
  | .plain text => .scalar (R.resolve text)
  | .str s => .scalar (.str s)
  | .seq _ items => .seq (decodeItems items)
  | .map entries => .map (decodeEntries entries)

def decodeItems : List Yaml.Node → List Conf
  | [] => []
  | n :: ns => decode n :: decodeItems ns

def decodeEntries : Yaml.Entries → List (Scalar × Conf)
  | [] => []
  | (k, n) :: es => (R.resolve k, decode n) :: decodeEntries es

end

theorem decodeItems_eq (items : List Yaml.Node) : decodeItems R items = items.map (decode R) := by
  induction items <;> simp_all [decodeItems]

theorem decodeEntries_eq (entries : Yaml.Entries) :
    decodeEntries R entries = entries.map fun e => (R.resolve e.1, decode R e.2) := by
  induction entries <;> simp_all [decodeEntries]

end Decode

section Expand

def reference? : List Char → Option (List Char)
  | '$' :: '{' :: cs => if '}' ∈ cs then some (cs.takeWhile (· ≠ '}')) else none
  | _ => none

variable (env : List Char → List Char)

-- Expands a text after the first `skip` characters of it, which are dropped: `$$` is an escaped `$`,
-- and references are replaced by what they stand for.
def expandFrom : Nat → List Char → List Char
  | _, [] => []
  | skip + 1, _ :: cs => expandFrom skip cs
  | 0, c :: cs =>
    if ['$', '$'] <+: c :: cs then '$' :: expandFrom 1 cs
    else
      match reference? (c :: cs) with
      | some name => env name ++ expandFrom (name.length + 2) cs
      | none => c :: expandFrom 0 cs

def expandString (s : String) : String :=
  .ofList (expandFrom env 0 s.toList)

mutual

def expand : Conf → Conf
  | .scalar (.str s) => .scalar (.str (expandString env s))
  | .scalar s => .scalar s
  | .seq items => .seq (expandItems items)
  | .map entries => .map (expandEntries entries)

def expandItems : List Conf → List Conf
  | [] => []
  | c :: cs => expand c :: expandItems cs

def expandEntries : List (Scalar × Conf) → List (Scalar × Conf)
  | [] => []
  | (k, c) :: es => (k, expand c) :: expandEntries es

end

theorem expandItems_eq (items : List Conf) : expandItems env items = items.map (expand env) := by
  induction items <;> simp_all [expandItems]

theorem expandEntries_eq (entries : List (Scalar × Conf)) :
    expandEntries env entries = entries.map fun e => (e.1, expand env e.2) := by
  induction entries <;> simp_all [expandEntries]

end Expand

section Literal

def Literal (l : List Char) : Prop :=
  ∀ t ∈ l.tails, ¬['$', '$'] <+: t ∧ reference? t = none

instance : DecidablePred Literal :=
  fun _ => inferInstanceAs <| Decidable <| ∀ t ∈ _, _

theorem literal_cons : Literal (c :: cs) ↔ (¬['$', '$'] <+: c :: cs ∧ reference? (c :: cs) = none) ∧ Literal cs := by
  simp [Literal]

theorem Literal.expandFrom_eq (h : Literal l) (env : List Char → List Char) : expandFrom env 0 l = l := by
  induction l
  case nil => rfl
  case cons c cs hi =>
    have ⟨⟨he, hr⟩, hl⟩ := literal_cons.mp h
    rw [expandFrom, if_neg he, hr, hi hl]

theorem length_expandFrom_le (skip : Nat) (l : List Char) :
    (expandFrom (fun _ => []) skip l).length ≤ l.length - skip := by
  induction l generalizing skip
  case nil => simp [expandFrom]
  case cons c cs hi =>
    cases skip
    case succ skip => simpa [expandFrom] using hi skip
    case zero =>
      rw [expandFrom]
      split
      case isTrue he =>
        have hlen := he.length_le
        have := hi 1
        simp only [List.length_cons, List.length_nil] at hlen ⊢
        omega
      case isFalse =>
        split
        case _ name _ =>
          have := hi (name.length + 2)
          simp only [List.nil_append, List.length_cons]
          omega
        case _ =>
          have := hi 0
          simp only [List.length_cons]
          omega

theorem length_expandFrom_lt (h : ¬Literal l) : (expandFrom (fun _ => []) 0 l).length < l.length := by
  induction l
  case nil => exact absurd (by simp [Literal, reference?]) h
  case cons c cs hi =>
    rw [expandFrom]
    split
    case isTrue he =>
      have hlen := he.length_le
      have := length_expandFrom_le 1 cs
      simp only [List.length_cons, List.length_nil] at hlen ⊢
      omega
    case isFalse he =>
      split
      case _ name _ =>
        have := length_expandFrom_le (name.length + 2) cs
        simp only [List.nil_append, List.length_cons]
        omega
      case _ hr =>
        have := hi fun hl => h (literal_cons.mpr ⟨⟨he, hr⟩, hl⟩)
        simp only [List.length_cons]
        omega

-- A string reads as it is written, whatever references stand for, exactly when it has no escapes and
-- no references.
theorem expandString_eq_iff : (∀ env, expandString env s = s) ↔ Literal s.toList := by
  constructor
  case mp =>
    intro h
    by_contra hl
    have hs := congrArg String.toList (h fun _ => [])
    rw [expandString, String.toList_ofList] at hs
    exact absurd (congrArg List.length hs) (length_expandFrom_lt hl).ne
  case mpr =>
    intro h env
    rw [expandString, h.expandFrom_eq, String.ofList_toList]

end Literal

end Confmap
