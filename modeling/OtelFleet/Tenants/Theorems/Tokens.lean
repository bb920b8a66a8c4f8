import OtelFleet.Tenants.Keys

-- Which strings are keys and tokens.
namespace Tenants

inductive TokenKind where
  | ingestKey
  | bootstrap
  | agent
  | management
deriving DecidableEq

namespace TokenKind

def head : TokenKind → String
  | ingestKey => "otm_"
  | bootstrap => "otm_bt_"
  | agent => "otm_at_"
  | management => "otm_pat_"

def parse : TokenKind → String → Option String
  | ingestKey => parseKeyPrefix
  | bootstrap => parseBootstrapTokenPrefix
  | agent => parseAgentTokenPrefix
  | management => parseAPITokenPrefix

def generate [Runtime] (bytes : KeyBytes) : TokenKind → GeneratedKey
  | ingestKey => generateAPIKey bytes
  | bootstrap => generateBootstrapToken bytes
  | agent => generateAgentToken (hexEncode bytes.lookup.toList) (Base64.rawURLEncodeToString bytes.secret.toList)
  | management => generateAPIToken bytes

end TokenKind

section Grammar

variable {t t' : TokenKind} {s start kind digits secret : String}

def Spells (head s digits secret : String) : Prop :=
  IsLookup digits ∧ secret ≠ "" ∧ s = head ++ digits ++ "_" ++ secret

theorem parseTokenPrefix_eq_some_iff (hkind : '_' ∉ kind.toList) :
    parseTokenPrefix kind s = some start ↔
      ∃ digits secret, Spells ("otm_" ++ kind ++ "_") s digits secret ∧ start = "otm_" ++ kind ++ "_" ++ digits := by
  simp only [parseTokenPrefix, Option.bind_eq_bind, Option.bind_eq_some_iff, Prod.exists, Strings.cut_eq_some_iff]
  constructor
  case mp =>
    rintro ⟨head, rest, ⟨rfl, -⟩, kind', rest, ⟨rfl, -⟩, digits, secret, ⟨rfl, -⟩, h⟩
    split_ifs at h with hparts
    obtain ⟨rfl, rfl, hsize, hne, hall⟩ := hparts
    refine ⟨digits, secret, ⟨isLookup_iff.mpr ⟨hsize, hall⟩, hne, ?_⟩, (Option.some.inj h).symm⟩
    rw [← otm_append]
    simp only [String.append_assoc]
    rfl
  case mpr =>
    rintro ⟨digits, secret, ⟨hd, hne, rfl⟩, rfl⟩
    have ⟨hsize, hall⟩ := isLookup_iff.mp hd
    have hs : "otm_" ++ kind ++ "_" ++ digits ++ "_" ++ secret =
        "otm" ++ String.singleton '_' ++ (kind ++ String.singleton '_' ++ (digits ++ String.singleton '_' ++ secret)) := by
      rw [← otm_append]
      simp only [String.append_assoc]
      rfl
    refine ⟨"otm", _, ⟨hs, by decide⟩, kind, _, ⟨rfl, hkind⟩, digits, secret, ⟨rfl, hd.underscore⟩, ?_⟩
    rw [if_pos ⟨rfl, rfl, hsize, hne, hall⟩]

theorem TokenKind.parse_eq_some_iff :
    t.parse s = some start ↔ ∃ digits secret, Spells t.head s digits secret ∧ start = t.head ++ digits := by
  cases t
  case ingestKey =>
    rw [parse, parseKeyPrefix_eq_some_iff]
    simp only [Spells, and_assoc]
    rfl
  case bootstrap | agent | management => exact parseTokenPrefix_eq_some_iff (by decide)

theorem TokenKind.generate_spells [Runtime] (t : TokenKind) (bytes : KeyBytes) :
    Spells t.head (t.generate bytes).secret (hexEncode bytes.lookup.toList)
      (Base64.rawURLEncodeToString bytes.secret.toList) := by
  have hne : Base64.rawURLEncodeToString bytes.secret.toList ≠ "" :=
    Base64.rawURLEncodeToString_ne_empty (List.ne_nil_of_length_pos (by rw [Vector.length_toList]; decide))
  refine ⟨isLookup_hexEncode bytes.lookup, hne, ?_⟩
  cases t
  all_goals rfl

def secondPart (s : String) : Option String :=
  (Strings.cut s '_').bind fun r => (Strings.cut r.2 '_').map Prod.fst

theorem secondPart_otm (h : '_' ∉ a.toList) (b : String) : secondPart ("otm_" ++ a ++ "_" ++ b) = some a := by
  rw [otm_append, secondPart, Strings.cut_append (by decide), Option.bind_some, Strings.cut_append h]
  rfl

-- The digits of a key stand where a token has its kind, and there are too many of them.
def TokenKind.Marks : TokenKind → String → Prop
  | ingestKey, part => part.length = 8
  | bootstrap, part => part = "bt"
  | agent, part => part = "at"
  | management, part => part = "pat"

theorem TokenKind.Marks.unique (h : t.Marks part) (h' : t'.Marks part) : t = t' := by
  cases t <;> cases t'
  all_goals first
    | rfl
    | (simp only [Marks] at h h'; subst h; exact absurd h' (by decide))
    | (simp only [Marks] at h h'; subst h'; exact absurd h (by decide))

theorem Spells.marks (h : Spells t.head s digits secret) : ∃ part, secondPart s = some part ∧ t.Marks part := by
  obtain ⟨hd, -, rfl⟩ := h
  have htoken (kind : String) (hkind : '_' ∉ kind.toList) :
      secondPart ("otm_" ++ kind ++ "_" ++ digits ++ "_" ++ secret) = some kind := by
    rw [String.append_assoc, String.append_assoc, secondPart_otm hkind]
  cases t
  case ingestKey => exact ⟨digits, secondPart_otm hd.underscore secret, hd.left⟩
  case bootstrap => exact ⟨"bt", htoken "bt" (by decide), rfl⟩
  case agent => exact ⟨"at", htoken "at" (by decide), rfl⟩
  case management => exact ⟨"pat", htoken "pat" (by decide), rfl⟩

theorem Spells.unique (h : Spells t.head s digits secret) (h' : Spells t'.head s digits' secret') : t = t' := by
  obtain ⟨part, hpart, hmarks⟩ := h.marks
  obtain ⟨part', hpart', hmarks'⟩ := h'.marks
  obtain rfl : part = part' := Option.some.inj (hpart.symm.trans hpart')
  exact hmarks.unique hmarks'

end Grammar

-- Each parser accepts what is spelled as its kind, and tells the beginning and the digits. A new key
-- or token is found by its own, and by no other parser.
theorem tokens_exact [Runtime] :
    (∀ (t : TokenKind) (s start : String),
      t.parse s = some start ↔
        ∃ digits secret, Spells t.head s digits secret ∧ start = t.head ++ digits) ∧
    (∀ (t : TokenKind) (bytes : KeyBytes),
      t.parse (t.generate bytes).secret = some (t.generate bytes).keyPrefix) ∧
    ∀ (t t' : TokenKind) (s : String), (t.parse s).isSome → (t'.parse s).isSome → t = t' := by
  refine ⟨fun _ _ _ => TokenKind.parse_eq_some_iff, fun t bytes => ?_, fun t t' s h h' => ?_⟩
  · refine TokenKind.parse_eq_some_iff.mpr ⟨_, _, t.generate_spells bytes, ?_⟩
    cases t
    all_goals rfl
  · obtain ⟨start, hstart⟩ := Option.isSome_iff_exists.mp h
    obtain ⟨start', hstart'⟩ := Option.isSome_iff_exists.mp h'
    obtain ⟨_, _, hspells, -⟩ := TokenKind.parse_eq_some_iff.mp hstart
    obtain ⟨_, _, hspells', -⟩ := TokenKind.parse_eq_some_iff.mp hstart'
    exact hspells.unique hspells'

end Tenants
