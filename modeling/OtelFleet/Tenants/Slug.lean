import Mathlib.Data.String.Basic
import Mathlib.Tactic.Common

namespace Tenants

def isAlnum (c : Char) : Bool :=
  ('a' ≤ c && c ≤ 'z') || ('0' ≤ c && c ≤ '9')

def isSlugChar (c : Char) : Bool :=
  isAlnum c || c == '-'

-- The strings that customer and pipeline slugs are drawn from, whatever their length.
def IsSlug (s : String) : Prop :=
  ∀ c ∈ s.toList, isSlugChar c

instance : DecidablePred IsSlug :=
  fun s => List.decidableBAll _ s.toList

-- The pattern ^[a-z0-9][a-z0-9-]{1,62}[a-z0-9]$.
def validSlug (s : String) : Bool :=
  match s.toList with
  | [] => false
  | c :: cs =>
    isAlnum c && 2 ≤ cs.length && cs.length ≤ 63 && cs.dropLast.all isSlugChar &&
      cs.getLast?.any isAlnum

-- Lower case of a rune, as far as `deriveSlug` can tell runes apart: next to the capital letters,
-- the Kelvin sign and the dotted capital I are the only runes whose lower case is in ASCII.
def toLower (c : Char) : Char :=
  if 'A' ≤ c ∧ c ≤ 'Z' then .ofNat (c.toNat + 32)
  else if c = '\u212a' then 'k'
  else if c = '\u0130' then 'i'
  else c

-- Replaces each run of other runes by a hyphen. The flag tells whether a hyphen would follow
-- another one or come first.
def hyphenate : Bool → List Char → List Char
  | _, [] => []
  | lastHyphen, c :: cs =>
    if isAlnum c then c :: hyphenate false cs
    else if lastHyphen then hyphenate true cs
    else '-' :: hyphenate true cs

def trimHyphens (cs : List Char) : List Char :=
  ((cs.dropWhile (· == '-')).reverse.dropWhile (· == '-')).reverse

def padSlug (cs : List Char) : List Char :=
  if cs = [] then "customer".toList else cs ++ List.replicate (3 - cs.length) '0'

def deriveSlug (name : String) : String :=
  let s := trimHyphens (hyphenate true (name.toList.map toLower))
  let s := if 64 < s.length then trimHyphens (s.take 64) else s
  String.ofList (padSlug s)

theorem hyphenate_isSlugChar (h : c ∈ hyphenate last cs) : isSlugChar c := by
  induction cs generalizing last
  case nil => simp [hyphenate] at h
  case cons d ds hi =>
    simp only [hyphenate] at h
    split_ifs at h with ha hl
    · obtain rfl | h := List.mem_cons.mp h
      · simp [isSlugChar, ha]
      · exact hi h
    · exact hi h
    · obtain rfl | h := List.mem_cons.mp h
      · decide
      · exact hi h

theorem mem_of_mem_trimHyphens (h : c ∈ trimHyphens cs) : c ∈ cs := by
  simp only [trimHyphens, List.mem_reverse] at h
  have h := (List.dropWhile_suffix _).subset h
  exact (List.dropWhile_suffix _).subset (List.mem_reverse.mp h)

theorem padSlug_isSlugChar (hc : ∀ c ∈ cs, isSlugChar c) : ∀ c ∈ padSlug cs, isSlugChar c := by
  intro c h
  unfold padSlug at h
  split_ifs at h
  · exact List.all_eq_true.mp (by decide) c h
  · obtain h | h := List.mem_append.mp h
    · exact hc c h
    · obtain ⟨_, rfl⟩ := List.mem_replicate.mp h
      decide

theorem deriveSlug_isSlug (name : String) : IsSlug (deriveSlug name) := by
  simp only [IsSlug, deriveSlug, String.toList_ofList]
  refine padSlug_isSlugChar fun c hc => ?_
  have hs : ∀ c ∈ trimHyphens (hyphenate true (name.toList.map toLower)), isSlugChar c :=
    fun c hc => hyphenate_isSlugChar (mem_of_mem_trimHyphens hc)
  split_ifs at hc
  · exact hs c (List.mem_of_mem_take (mem_of_mem_trimHyphens hc))
  · exact hs c hc

end Tenants
