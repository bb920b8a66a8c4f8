import OtelFleet.Tenants.Tokens
import OtelFleet.Lib.Base64

-- The keys that customers send their data with: otm_<8 hex>_<base64url of 32 bytes>.
namespace Tenants

def hexEncode (bs : List UInt8) : String :=
  .ofList (bs.flatMap fun b => Strconv.hex 2 b.toNat)

def newClientID (bytes : Vector UInt8 4) : String :=
  "cust_" ++ hexEncode bytes.toList

structure KeyBytes where
  lookup : Vector UInt8 4
  secret : Vector UInt8 32

def generateAPIKey [Runtime] (bytes : KeyBytes) : GeneratedKey :=
  let keyPrefix := "otm_" ++ hexEncode bytes.lookup.toList
  let secret := keyPrefix ++ "_" ++ Base64.rawURLEncodeToString bytes.secret.toList
  { secret := secret, keyPrefix := keyPrefix, hash := hashAPIKey secret }

def generateToken [Runtime] (head : String) (bytes : KeyBytes) : GeneratedKey :=
  let keyPrefix := head ++ hexEncode bytes.lookup.toList
  let secret := keyPrefix ++ "_" ++ Base64.rawURLEncodeToString bytes.secret.toList
  { secret := secret, keyPrefix := keyPrefix, hash := hashAPIKey secret }

def generateBootstrapToken [Runtime] (bytes : KeyBytes) : GeneratedKey :=
  generateToken "otm_bt_" bytes

def generateAPIToken [Runtime] (bytes : KeyBytes) : GeneratedKey :=
  generateToken "otm_pat_" bytes

-- The secret is all that follows the second underscore, and may have underscores of its own.
def parseKeyPrefix (key : String) : Option String := do
  let (head, rest) ← Strings.cut key '_'
  let (digits, secret) ← Strings.cut rest '_'
  if head = "otm" ∧ digits.utf8ByteSize = 8 ∧ secret ≠ "" ∧ digits.toList.all isLowerHex then
    some ("otm_" ++ digits)
  else none

section Generated

theorem isLowerHex_digitChar : ∀ n < 16, isLowerHex (Nat.digitChar n) := by
  decide

theorem isLowerHex_of_mem_hexEncode (h : c ∈ (hexEncode bs).toList) : isLowerHex c := by
  rw [hexEncode, String.toList_ofList, List.mem_flatMap] at h
  obtain ⟨b, -, hc⟩ := h
  simp only [Strconv.hex, List.nil_append, List.mem_append, List.mem_singleton] at hc
  obtain rfl | rfl := hc <;> exact isLowerHex_digitChar _ (Nat.mod_lt _ (by decide))

theorem utf8Size_of_isLowerHex (h : isLowerHex c) : c.utf8Size = 1 := by
  have hc : c.val ≤ 127 := by
    simp only [isLowerHex, Bool.or_eq_true, Bool.and_eq_true, decide_eq_true_eq] at h
    obtain ⟨-, h⟩ | ⟨-, h⟩ := h
    · exact UInt32.le_trans h (by decide : '9'.val ≤ 127)
    · exact UInt32.le_trans h (by decide : 'f'.val ≤ 127)
  simp [Char.utf8Size, hc]

theorem utf8ByteSize_of_isLowerHex {s : String} (h : ∀ c ∈ s.toList, isLowerHex c) : s.utf8ByteSize = s.length := by
  have hsize : ∀ cs : List Char, (∀ c ∈ cs, isLowerHex c) → (String.ofList cs).utf8ByteSize = cs.length := by
    intro cs hcs
    induction cs
    case nil => rfl
    case cons c cs hi =>
      rw [String.ofList_cons, String.utf8ByteSize_append, hi fun d hd => hcs d (List.mem_cons_of_mem _ hd)]
      simp [utf8Size_of_isLowerHex (hcs c List.mem_cons_self), Nat.add_comm]
  rw [← String.length_toList, ← hsize _ h, String.ofList_toList]

-- What follows the literal beginning of a key or token: eight lower case digits.
def IsLookup (digits : String) : Prop :=
  digits.length = 8 ∧ ∀ c ∈ digits.toList, isLowerHex c

theorem IsLookup.underscore (h : IsLookup digits) : '_' ∉ digits.toList :=
  fun hmem => absurd (h.right _ hmem) (by decide)

theorem isLookup_iff {digits : String} : IsLookup digits ↔ digits.utf8ByteSize = 8 ∧ digits.toList.all isLowerHex := by
  rw [List.all_eq_true]
  constructor
  · intro h
    exact ⟨(utf8ByteSize_of_isLowerHex h.right).trans h.left, h.right⟩
  · rintro ⟨hsize, hall⟩
    exact ⟨(utf8ByteSize_of_isLowerHex hall).symm.trans hsize, hall⟩

theorem isLookup_hexEncode (bytes : Vector UInt8 4) : IsLookup (hexEncode bytes.toList) := by
  refine ⟨?_, fun c hc => isLowerHex_of_mem_hexEncode hc⟩
  rw [← String.length_toList, hexEncode, String.toList_ofList]
  simp [List.length_flatMap, Strconv.hex]

theorem otm_append (a b : String) :
    "otm_" ++ a ++ "_" ++ b = "otm" ++ String.singleton '_' ++ (a ++ String.singleton '_' ++ b) := by
  rw [← String.append_assoc, ← String.append_assoc]
  rfl

theorem parseKeyPrefix_eq_some_iff :
    parseKeyPrefix key = some start ↔
      ∃ digits secret, IsLookup digits ∧ secret ≠ "" ∧ key = "otm_" ++ digits ++ "_" ++ secret ∧
        start = "otm_" ++ digits := by
  simp only [parseKeyPrefix, Option.bind_eq_bind, Option.bind_eq_some_iff, Prod.exists, Strings.cut_eq_some_iff]
  constructor
  case mp =>
    rintro ⟨head, rest, ⟨rfl, -⟩, digits, secret, ⟨rfl, -⟩, h⟩
    split_ifs at h with hparts
    obtain ⟨rfl, hsize, hne, hall⟩ := hparts
    refine ⟨digits, secret, isLookup_iff.mpr ⟨hsize, hall⟩, hne, (otm_append _ _).symm, ?_⟩
    exact (Option.some.inj h).symm
  case mpr =>
    rintro ⟨digits, secret, hd, hne, rfl, rfl⟩
    have ⟨hsize, hall⟩ := isLookup_iff.mp hd
    refine ⟨"otm", _, ⟨otm_append _ _, by decide⟩, digits, secret, ⟨rfl, hd.underscore⟩, ?_⟩
    rw [if_pos ⟨rfl, hsize, hne, hall⟩]

theorem parseKeyPrefix_generateAPIKey [Runtime] (bytes : KeyBytes) :
    parseKeyPrefix (generateAPIKey bytes).secret = some (generateAPIKey bytes).keyPrefix := by
  refine parseKeyPrefix_eq_some_iff.mpr ⟨_, _, isLookup_hexEncode bytes.lookup, ?_, rfl, rfl⟩
  exact Base64.rawURLEncodeToString_ne_empty (List.ne_nil_of_length_pos (by rw [Vector.length_toList]; decide))

end Generated

end Tenants
