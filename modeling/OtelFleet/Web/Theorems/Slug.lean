import OtelFleet.Tenants.Theorems.Slug
import OtelFleet.Web.Slug

open scoped Strconv

-- When the slug that the form shows is the one that the server derives.
namespace Web

open Tenants (isAlnum hyphenate trimHyphens padSlug Slugged toLower trimHyphens_eq dropWhile_of_head
  trimHyphens_of_slugged padSlug_of_length)

section Words

inductive Place where
  | start
  | word
  | gap

-- The words of a text, with a hyphen between them.
def joined : Place → List Char → List Char
  | _, [] => []
  | .start, c :: cs => if isAlnum c then c :: joined .word cs else joined .start cs
  | .word, c :: cs => if isAlnum c then c :: joined .word cs else joined .gap cs
  | .gap, c :: cs => if isAlnum c then '-' :: c :: joined .word cs else joined .gap cs

@[simp]
theorem joined_nil (p : Place) : joined p [] = [] := by
  cases p <;> rfl

theorem rdropWhile_cons (p : Char → Bool) (c : Char) (cs : List Char) :
    (c :: cs).rdropWhile p = if p c ∧ cs.rdropWhile p = [] then [] else c :: cs.rdropWhile p := by
  unfold List.rdropWhile
  rw [List.reverse_cons, List.dropWhile_append]
  cases hp : p c <;> cases hd : cs.reverse.dropWhile p <;> simp [hp]

theorem rdropWhile_hyphenate (cs : List Char) :
    (hyphenate true cs).rdropWhile (· == '-') = joined .start cs ∧
      (hyphenate false cs).rdropWhile (· == '-') = joined .word cs ∧
      ('-' :: hyphenate true cs).rdropWhile (· == '-') = joined .gap cs := by
  induction cs
  case nil => decide
  case cons c cs hi =>
    obtain ⟨hstart, hword, hgap⟩ := hi
    by_cases hc : isAlnum c
    case pos =>
      have hne : (c == '-') = false := by
        rw [beq_eq_false_iff_ne]
        rintro rfl
        cases hc
      simp only [hyphenate, joined, if_pos hc, rdropWhile_cons, hne, hword]
      simp
    case neg =>
      simp only [hyphenate, joined, if_neg hc, if_true, Bool.false_eq_true, if_false]
      exact ⟨hstart, hgap, hgap⟩

theorem isAlnum_of_mem_head?_hyphenate (h : c ∈ (hyphenate true cs).head?) : isAlnum c := by
  induction cs
  case nil => cases h
  case cons d cs hi =>
    by_cases hd : isAlnum d
    · rw [hyphenate, if_pos hd] at h
      cases h
      exact hd
    · rw [hyphenate, if_neg hd, if_pos rfl] at h
      exact hi h

theorem trimHyphens_hyphenate (cs : List Char) : trimHyphens (hyphenate true cs) = joined .start cs := by
  rw [trimHyphens_eq, dropWhile_of_head fun _ => isAlnum_of_mem_head?_hyphenate]
  exact (rdropWhile_hyphenate cs).left

theorem slugged_joined (cs : List Char) : Slugged (joined .start cs) := by
  rw [← trimHyphens_hyphenate]
  exact .trimHyphens fun _ => Tenants.hyphenate_isSlugChar

def Place.skip : Place → Place
  | start => start
  | word | gap => gap

theorem joined_cons_of_not (h : ¬isAlnum c) (p : Place) (cs : List Char) : joined p (c :: cs) = joined p.skip cs := by
  cases p <;> rw [joined, if_neg h] <;> rfl

theorem joined_append_left (h : ∀ c ∈ cs, ¬isAlnum c) (hne : cs ≠ []) (p : Place) (ds : List Char) :
    joined p (cs ++ ds) = joined p.skip ds := by
  induction cs generalizing p
  case nil => exact absurd rfl hne
  case cons c cs hi =>
    rw [List.forall_mem_cons] at h
    rw [List.cons_append, joined_cons_of_not h.left]
    cases cs
    case nil => rfl
    case cons d cs =>
      rw [hi h.right (by simp)]
      cases p <;> rfl

theorem joined_append_right (h : ∀ c ∈ ds, ¬isAlnum c) (p : Place) (cs : List Char) :
    joined p (cs ++ ds) = joined p cs := by
  induction cs generalizing p
  case nil =>
    by_cases hne : ds = []
    · rw [hne, List.append_nil]
    · have hskip := joined_append_left h hne p []
      rw [List.append_nil, joined_nil] at hskip
      rw [List.nil_append, joined_nil, hskip]
  case cons c cs hi =>
    cases p
    all_goals
      simp only [List.cons_append, joined]
      split_ifs <;> simp [hi]

theorem joined_map (p : Place) (cs : List Char) :
    joined p (cs.map fun c => if isAlnum c then c else '-') = joined p cs := by
  have hhyphen : ¬isAlnum '-' := by decide
  induction cs generalizing p
  case nil => rfl
  case cons c cs hi =>
    rw [List.map_cons]
    by_cases hc : isAlnum c
    · rw [if_pos hc]
      cases p <;> simp only [joined, if_pos hc, hi]
    · rw [if_neg hc, joined_cons_of_not hhyphen, joined_cons_of_not hc, hi]

theorem countP_joined (p : Place) (cs : List Char) : (joined p cs).countP isAlnum = cs.countP isAlnum := by
  have hhyphen : isAlnum '-' = false := rfl
  induction cs generalizing p
  case nil => cases p <;> rfl
  case cons c cs hi =>
    cases p
    all_goals
      simp only [joined]
      split_ifs with hc <;> simp [hc, hi, hhyphen]

theorem length_joined_le (cs : List Char) :
    (joined .start cs).length ≤ cs.length ∧ (joined .word cs).length ≤ cs.length ∧
      (joined .gap cs).length ≤ cs.length + 1 := by
  induction cs
  case nil => simp
  case cons c cs hi =>
    obtain ⟨hstart, hword, hgap⟩ := hi
    by_cases hc : isAlnum c
    all_goals
      simp only [joined, hc, if_true, Bool.false_eq_true, if_false, List.length_cons]
      omega

end Words

section Slug

variable {cs l : List Char}

def slugOf (cs : List Char) : List Char :=
  trimHyphens ((joined .start cs).take 64)

theorem replaceRuns_eq_hyphenate (inRun : Bool) (cs : List Char) :
    replaceRuns (!isAlnum ·) '-' inRun cs = hyphenate inRun cs := by
  induction cs generalizing inRun
  case nil => rfl
  case cons c cs hi =>
    simp only [replaceRuns, hyphenate, hi]
    cases isAlnum c
    all_goals rfl

theorem dropWhile_hyphenate (cs : List Char) :
    (hyphenate false cs).dropWhile (· == '-') = (hyphenate true cs).dropWhile (· == '-') := by
  cases cs
  case nil => rfl
  case cons c cs =>
    by_cases hc : isAlnum c
    · rw [hyphenate, hyphenate, if_pos hc, if_pos hc]
    · rw [hyphenate, hyphenate, if_neg hc, if_neg hc, if_pos rfl, if_neg Bool.false_ne_true]
      exact @List.dropWhile_cons_of_pos _ (· == '-') '-' _ rfl

theorem trimHyphens_take (h : Slugged cs) : trimHyphens (cs.take 64) = (cs.take 64).rdropWhile (· == '-') := by
  rw [trimHyphens_eq, dropWhile_of_head]
  intro c hc
  rw [List.head?_take] at hc
  exact h.head c (by simpa using hc)

theorem slugOf_of_length (h : cs.length ≤ 64) : slugOf cs = joined .start cs := by
  have hlen := (length_joined_le cs).left
  rw [slugOf, List.take_of_length_le (hlen.trans h), trimHyphens_of_slugged (slugged_joined cs)]

theorem toList_serverSlug (name : String) :
    (Tenants.deriveSlug name).toList = padSlug (slugOf (name.toList.map toLower)) := by
  unfold Tenants.deriveSlug slugOf
  rw [String.toList_ofList, trimHyphens_hyphenate]
  congr 1
  split_ifs with hlen
  · rfl
  · rw [List.take_of_length_le (by omega), trimHyphens_of_slugged (slugged_joined _)]

theorem toList_deriveSlug [Unicode] (name : String) : (deriveSlug name).toList = slugOf (letters name) := by
  unfold deriveSlug slugOf
  rw [String.toList_ofList, replaceRuns_eq_hyphenate, dropWhile_hyphenate, ← trimHyphens_eq, trimHyphens_hyphenate,
    trimHyphens_take (slugged_joined _)]

end Slug

section Trim

theorem slugOf_trim (hp : ∀ c, p c → ¬isAlnum (toLower c)) (cs : List Char) :
    slugOf (((cs.dropWhile p).rdropWhile p).map toLower) = slugOf (cs.map toLower) := by
  have hsplit : cs.takeWhile p ++ (cs.dropWhile p).rdropWhile p ++ (cs.dropWhile p).rtakeWhile p = cs := by
    rw [List.append_assoc, List.rdropWhile_append_rtakeWhile, List.takeWhile_append_dropWhile]
  have hfront : ∀ c ∈ (cs.takeWhile p).map toLower, ¬isAlnum c :=
    List.forall_mem_map.mpr fun c hc => hp c (List.mem_takeWhile_imp hc)
  have hback : ∀ c ∈ ((cs.dropWhile p).rtakeWhile p).map toLower, ¬isAlnum c :=
    List.forall_mem_map.mpr fun c hc => hp c (List.mem_takeWhile_imp (List.mem_reverse.mp hc))
  nth_rewrite 2 [← hsplit]
  rw [slugOf, slugOf, List.map_append, List.map_append, joined_append_right hback]
  by_cases hne : (cs.takeWhile p).map toLower = []
  · rw [hne, List.nil_append]
  · rw [joined_append_left hfront hne]
    rfl

theorem isAlnum_toLower_of_range (h : '\u2000' ≤ c) (h' : c ≤ '\u200a') : ¬isAlnum (toLower c) := by
  have hZ : ¬c ≤ 'Z' := not_le_of_gt (lt_of_lt_of_le (by decide) h)
  have hz : ¬c ≤ 'z' := not_le_of_gt (lt_of_lt_of_le (by decide) h)
  have h9 : ¬c ≤ '9' := not_le_of_gt (lt_of_lt_of_le (by decide) h)
  have hkelvin : c ≠ '\u212a' := ne_of_lt (lt_of_le_of_lt h' (by decide))
  have hdotted : c ≠ '\u0130' := (ne_of_lt (lt_of_lt_of_le (by decide) h)).symm
  simp [toLower, isAlnum, hZ, hz, h9, hkelvin, hdotted]

theorem isAlnum_of_isSpace (h : isSpace c) : ¬isAlnum (toLower c) := by
  simp only [isSpace, Bool.or_eq_true, List.contains_iff_mem, Bool.and_eq_true, decide_eq_true_eq] at h
  obtain hc | ⟨hc, hc'⟩ := h
  · revert c
    decide
  · exact isAlnum_toLower_of_range hc hc'

theorem isAlnum_of_trimmed (h : Strings.isSpace c) : ¬isAlnum (toLower c) := by
  simp only [Strings.isSpace, Bool.or_eq_true, List.contains_iff_mem, Bool.and_eq_true, decide_eq_true_eq] at h
  obtain hc | ⟨hc, hc'⟩ := h
  · revert c
    decide
  · exact isAlnum_toLower_of_range hc hc'

theorem toList_storedSlug (name : String) :
    (Tenants.deriveSlug (Strings.trimSpace (trim name))).toList = padSlug (slugOf (name.toList.map toLower)) := by
  rw [toList_serverSlug, Strings.trimSpace, trim, String.toList_ofList, String.toList_ofList, ← List.rdropWhile,
    slugOf_trim (fun _ => isAlnum_of_trimmed), slugOf_trim (fun _ => isAlnum_of_isSpace)]

end Trim

section Preview

theorem length_of_isValidSlug (h : isValidSlug slug) : 3 ≤ slug.toList.length := by
  unfold isValidSlug Tenants.validSlug at h
  split at h
  case h_1 => cases h
  case h_2 c cs heq =>
    simp only [Bool.and_eq_true, decide_eq_true_eq] at h
    rw [heq, List.length_cons]
    omega

-- The characters that count for the server, and what the form makes of a character.
def kept (c : Char) : Bool :=
  isAlnum (toLower c)

variable [Unicode] {name : String}

def shown (c : Char) : List Char :=
  shape (Unicode.nfkd (Unicode.toLowerCase [c]))

inductive Gap where
  | none
  | word
  | hidden
deriving DecidableEq

-- Whether the form leaves a gap wherever the server sees one: what stands between two words is not
-- dropped altogether.
def apart : Gap → List Char → Bool
  | _, [] => true
  | g, c :: cs =>
    if kept c then g ≠ .hidden && apart .word cs
    else if shown c = [] ∧ g ≠ .none then apart .hidden cs
    else apart .none cs

-- No character turns into a letter or a digit that is none for the server, and no words run together.
structure Faithful (name : List Char) : Prop where
  gains : ∀ c ∈ name, kept c ∨ ∀ d ∈ shown c, ¬isAlnum d
  apart : apart .none name

-- Nothing is cut off, and nothing is padded.
structure Fits (name : String) : Prop where
  length : name.toList.length ≤ 64
  letters : (letters name).length ≤ 64
  countP : 3 ≤ name.toList.countP kept

theorem joined_letters (name : String) : joined .start (letters name) = joined .start (name.toList.flatMap shown) := by
  rw [letters, ← joined_map]
  exact congrArg _ (Unicode.charwise _)

theorem shown_of_ascii (h : (toLower c).toNat < 128) : shown c = [if isAlnum (toLower c) then toLower c else '-'] := by
  have hmark : isCombining (toLower c) = false := by
    have hlt : ¬ '\u0300' ≤ toLower c := fun hle =>
      absurd ((UInt32.le_iff_toNat_le.mp hle).trans_lt h) (by decide)
    simp [isCombining, hlt]
  rw [shown, Unicode.ascii c h, shape, List.filter_cons_of_pos (by simp [hmark])]
  rfl

theorem shown_of_kept (h : kept c) : shown c = [toLower c] := by
  have h : isAlnum (toLower c) := h
  have hascii : (toLower c).toNat < 128 := by
    simp only [isAlnum, Bool.or_eq_true, Bool.and_eq_true, decide_eq_true_eq] at h
    obtain h | h := h
    all_goals exact (UInt32.le_iff_toNat_le.mp h.right).trans_lt (by decide)
  rw [shown_of_ascii hascii, if_pos h]

theorem joined_eq_iff (hg : ∀ c ∈ cs, kept c ∨ ∀ d ∈ shown c, ¬isAlnum d) :
    (∀ p : Place, p.skip = p → (joined p (cs.flatMap shown) = joined p (cs.map toLower) ↔ apart .none cs)) ∧
      (joined .word (cs.flatMap shown) = joined .word (cs.map toLower) ↔ apart .word cs) ∧
      (joined .word (cs.flatMap shown) = joined .gap (cs.map toLower) ↔ apart .hidden cs) := by
  induction cs
  case nil => simp [apart]
  case cons c cs hi =>
    rw [List.forall_mem_cons] at hg
    obtain ⟨hnone, hword, hhidden⟩ := hi hg.right
    rw [List.flatMap_cons, List.map_cons]
    by_cases hk : kept c
    case pos =>
      have hc : isAlnum (toLower c) := hk
      have hne : toLower c ≠ '-' := by
        intro he
        rw [he] at hc
        cases hc
      rw [shown_of_kept hk, List.singleton_append]
      refine ⟨fun p hp => ?_, ?_, ?_⟩
      · cases p
        case word => cases hp
        all_goals simp [joined, hc, apart, hk, hword]
      · simp [joined, hc, apart, hk, hword]
      · simp [joined, hc, apart, hk, hne]
    case neg =>
      have hc : ¬isAlnum (toLower c) := hk
      have hsep := hg.left.resolve_left hk
      simp only [joined_cons_of_not hc, apart, if_neg hk]
      by_cases hs : shown c = []
      case pos =>
        simp only [hs, List.nil_append, true_and]
        refine ⟨fun p hp => ?_, ?_, ?_⟩
        · rw [hp]
          simpa using hnone p hp
        all_goals simpa [Place.skip] using hhidden
      case neg =>
        simp only [joined_append_left hsep hs, hs, false_and, if_false]
        refine ⟨fun p hp => ?_, hnone .gap rfl, hnone .gap rfl⟩
        rw [hp]
        exact hnone p hp

theorem countP_map_le (cs : List Char) : (cs.map toLower).countP isAlnum ≤ (cs.flatMap shown).countP isAlnum := by
  induction cs
  case nil => exact Nat.le_refl _
  case cons c cs hi =>
    rw [List.flatMap_cons, List.map_cons, List.countP_append, List.countP_cons]
    by_cases hk : kept c
    · rw [shown_of_kept hk, List.countP_singleton]
      omega
    · have hc : ¬isAlnum (toLower c) := hk
      rw [if_neg hc]
      omega

theorem gains_of_countP {cs : List Char} (h : (cs.flatMap shown).countP isAlnum = (cs.map toLower).countP isAlnum) :
    ∀ c ∈ cs, kept c ∨ ∀ d ∈ shown c, ¬isAlnum d := by
  induction cs
  case nil => simp
  case cons c cs hi =>
    have hle := countP_map_le cs
    rw [List.flatMap_cons, List.map_cons, List.countP_append, List.countP_cons] at h
    rw [List.forall_mem_cons]
    by_cases hk : kept c
    · rw [shown_of_kept hk, List.countP_singleton] at h
      exact ⟨.inl hk, hi (by omega)⟩
    · have hc : ¬isAlnum (toLower c) := hk
      rw [if_neg hc] at h
      exact ⟨.inr (List.countP_eq_zero.mp (by omega)), hi (by omega)⟩

theorem faithful_iff (cs : List Char) :
    Faithful cs ↔ joined .start (cs.flatMap shown) = joined .start (cs.map toLower) := by
  constructor
  · exact fun h => ((joined_eq_iff h.gains).left .start rfl).mpr h.apart
  · intro h
    have hgains := gains_of_countP (by rw [← countP_joined .start, h, countP_joined])
    exact ⟨hgains, ((joined_eq_iff hgains).left .start rfl).mp h⟩

-- The form shows the slug that is stored as long as taking the accents away neither brings out letters
-- nor makes words run together. It shows another one if it does, unless the slug is cut or padded.
theorem preview_stored_iff (h : isValidSlug (deriveSlug name)) :
    (Faithful name.toList → deriveSlug name = Tenants.deriveSlug (Strings.trimSpace (trim name))) ∧
      (Fits name → deriveSlug name = Tenants.deriveSlug (Strings.trimSpace (trim name)) → Faithful name.toList) := by
  have hlen : 3 ≤ (slugOf (letters name)).length := by
    rw [← toList_deriveSlug]
    exact length_of_isValidSlug h
  rw [← String.toList_inj, toList_deriveSlug, toList_storedSlug, faithful_iff, ← joined_letters]
  constructor
  · intro heq
    rw [slugOf, slugOf, ← heq] at *
    rw [padSlug_of_length hlen]
  · intro hfits heq
    have hcount := countP_joined .start (name.toList.map toLower)
    rw [List.countP_map] at hcount
    have hkept : 3 ≤ (joined .start (name.toList.map toLower)).length :=
      (hfits.countP.trans (ge_of_eq hcount)).trans List.countP_le_length
    rwa [slugOf_of_length hfits.letters, slugOf_of_length (by simpa using hfits.length), padSlug_of_length hkept] at heq

theorem apart_of_forall (h : ∀ c ∈ cs, shown c ≠ []) {g : Gap} (hg : g ≠ .hidden) : apart g cs := by
  induction cs generalizing g
  case nil => rfl
  case cons c cs hi =>
    rw [List.forall_mem_cons] at h
    rw [apart]
    split_ifs with _ hs
    · simpa [hg] using hi h.right (by decide)
    · exact absurd hs.left h.left
    · exact hi h.right (by decide)

-- In ASCII there is nothing to take away.
theorem faithful_of_ascii (h : ∀ c ∈ cs, c.toNat < 128) : Faithful cs := by
  have hlower : ∀ n < 128, (toLower (.ofNat n)).toNat < 128 := by decide
  have hshown : ∀ c ∈ cs, shown c = [if kept c then toLower c else '-'] := by
    intro c hc
    have hc := hlower c.toNat (h c hc)
    rw [Char.ofNat_toNat] at hc
    exact shown_of_ascii hc
  refine ⟨fun c hc => ?_, apart_of_forall (fun c hc => ?_) (by decide)⟩
  · by_cases hk : kept c
    · exact .inl hk
    · rw [hshown c hc, if_neg hk]
      exact .inr (by decide)
  · rw [hshown c hc]
    exact List.cons_ne_nil _ _

end Preview

section Samples

@[reducible]
def Unicode.sample : Unicode where
  toLowerCase s := s.map toLower
  nfkd s := s.flatMap fun c => if c = '\u00e9' then ['e', '\u0301'] else [c]
  charwise s := by
    simp only [shape, List.flatMap_map, List.map_cons, List.map_nil, List.flatMap_cons, List.flatMap_nil, List.append_nil]
    induction s
    case nil => rfl
    case cons c cs hi => simp only [List.flatMap_cons, List.filter_append, List.map_append, hi]
  ascii c h := by
    have hc : toLower c ≠ '\u00e9' := by
      intro he
      rw [he] at h
      exact absurd h (by decide)
    simp only [List.map_cons, List.map_nil, List.flatMap_cons, List.flatMap_nil, List.append_nil, if_neg hc]

-- A dash is no letter either way, and an accent hides one from the server.
theorem acme_stored :
    letI := Unicode.sample
    (isValidSlug (deriveSlug " ACME \u2013 Corp.") ∧
        deriveSlug " ACME \u2013 Corp." = Tenants.deriveSlug (Strings.trimSpace (trim " ACME \u2013 Corp."))) ∧
      deriveSlug "Ren\u00e9" ≠ Tenants.deriveSlug (Strings.trimSpace (trim "Ren\u00e9")) := by
  let _ := Unicode.sample
  refine ⟨⟨by decide +kernel, (preview_stored_iff (by decide +kernel)).left ⟨by decide +kernel, by decide +kernel⟩⟩, ?_⟩
  intro heq
  have hgains := ((preview_stored_iff (by decide +kernel)).right ⟨by decide, by decide +kernel, by decide⟩ heq).gains
  exact absurd hgains (by decide +kernel)

-- The form shows "cafe-bar", and "caf-bar" is stored.
theorem cafe_not_stored :
    letI := Unicode.sample
    isValidSlug (deriveSlug "Caf\u00e9 Bar") ∧
      deriveSlug "Caf\u00e9 Bar" ≠ Tenants.deriveSlug (Strings.trimSpace (trim "Caf\u00e9 Bar")) := by
  decide +kernel

end Samples

end Web
