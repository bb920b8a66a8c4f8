import Mathlib.Data.List.Induction
import Mathlib.Data.List.Nodup
import Mathlib.Logic.Function.Basic
import Mathlib.Logic.Function.Iterate
import Mathlib.Tactic.Common

-- Calls that run side by side and take turns on a shared state, one atomic step at a time.
namespace Interleave

open Function (update_of_ne update_self)

-- A kind of calls: `ρ` is what a call is asked for, `κ` where it stands, `σ` the shared state, and
-- `ι` what a step draws from outside.
structure System (ρ κ σ ι : Type) where
  idle : κ
  isIdle : κ → Bool
  begin : ρ → κ
  step : ι → σ → κ → κ × σ

structure Config (κ σ : Type) where
  shared : σ
  calls : Nat → κ

inductive Event (ρ ι : Type) where
  | start (i : Nat) (r : ρ)
  | run (i : Nat) (x : ι)

def Event.slot {ρ ι : Type} : Event ρ ι → Nat
  | start i _ => i
  | run i _ => i

namespace System

variable {ρ κ σ ι : Type} (S : System ρ κ σ ι)

def init (s : σ) : Config κ σ :=
  { shared := s, calls := fun _ => S.idle }

-- A slot that is taken does not start another call.
def act (c : Config κ σ) : Event ρ ι → Config κ σ
  | .start i r => if S.isIdle (c.calls i) then { c with calls := Function.update c.calls i (S.begin r) } else c
  | .run i x =>
    let r := S.step x c.shared (c.calls i)
    { shared := r.2, calls := Function.update c.calls i r.1 }

def run (c : Config κ σ) (events : List (Event ρ ι)) : Config κ σ :=
  events.foldl S.act c

-- An event is a start, or a step that meets a condition on the calls under way and the one of them that takes it.
def Allows (ok : Config κ σ → Nat → Prop) (c : Config κ σ) : Event ρ ι → Prop
  | .start _ _ => True
  | .run i _ => ok c i

def MeetsAmong (ok : Config κ σ → Nat → Prop) : Config κ σ → List (Event ρ ι) → Prop
  | _, [] => True
  | c, e :: es => Allows ok c e ∧ MeetsAmong ok (S.act c e) es

-- The condition is one on the shared state and the call that takes the step.
abbrev Meets (ok : σ → κ → Prop) : Config κ σ → List (Event ρ ι) → Prop :=
  S.MeetsAmong fun c i => ok c.shared (c.calls i)

instance {ok : Config κ σ → Nat → Prop} [∀ c i, Decidable (ok c i)] (c : Config κ σ) :
    (e : Event ρ ι) → Decidable (Allows ok c e)
  | .start _ _ => isTrue trivial
  | .run i _ => inferInstanceAs <| Decidable <| ok c i

instance decidableMeets {ok : Config κ σ → Nat → Prop} [∀ c i, Decidable (ok c i)] :
    (c : Config κ σ) → (events : List (Event ρ ι)) → Decidable (S.MeetsAmong ok c events)
  | _, [] => isTrue trivial
  | c, e :: es =>
    have : Decidable (S.MeetsAmong ok (S.act c e) es) := decidableMeets (S.act c e) es
    inferInstanceAs <| Decidable <| _ ∧ _

def Along (P : Config κ σ → Prop) : Config κ σ → List (Event ρ ι) → Prop
  | c, [] => P c
  | c, e :: es => P c ∧ Along P (S.act c e) es

instance decidableAlong {P : Config κ σ → Prop} [∀ c, Decidable (P c)] :
    (c : Config κ σ) → (events : List (Event ρ ι)) → Decidable (S.Along P c events)
  | c, [] => inferInstanceAs <| Decidable <| P c
  | c, e :: es =>
    have : Decidable (S.Along P (S.act c e) es) := decidableAlong (S.act c e) es
    inferInstanceAs <| Decidable <| _ ∧ _

def shown {α : Type} (f : ι → σ → κ → List α) (c : Config κ σ) : Event ρ ι → List α
  | .start _ _ => []
  | .run i x => f x c.shared (c.calls i)

def trace {α : Type} (f : ι → σ → κ → List α) : Config κ σ → List (Event ρ ι) → List α
  | _, [] => []
  | c, e :: es => shown f c e ++ trace f (S.act c e) es

variable {S} {c : Config κ σ} {ok : σ → κ → Prop}

@[simp]
theorem run_nil : S.run c [] = c :=
  rfl

@[simp]
theorem run_cons (e : Event ρ ι) (es : List (Event ρ ι)) : S.run c (e :: es) = S.run (S.act c e) es :=
  rfl

theorem run_append (es es' : List (Event ρ ι)) : S.run c (es ++ es') = S.run (S.run c es) es' :=
  List.foldl_append

@[simp]
theorem calls_act_self (i : Nat) (x : ι) : (S.act c (.run i x)).calls i = (S.step x c.shared (c.calls i)).1 := by
  simp [act]

@[simp]
theorem calls_act_of_ne (h : j ≠ i) (x : ι) : (S.act c (.run i x)).calls j = c.calls j := by
  simp [act, h]

theorem run_two (h : S.isIdle (c.calls i)) (r : ρ) (x x' : ι) :
    S.run c [.start i r, .run i x, .run i x'] =
      { shared := (S.step x' (S.step x c.shared (S.begin r)).2 (S.step x c.shared (S.begin r)).1).2
        calls := Function.update c.calls i
          (S.step x' (S.step x c.shared (S.begin r)).2 (S.step x c.shared (S.begin r)).1).1 } := by
  simp [run, act, h]

theorem shared_run_replicate (i : Nat) (x : ι) (n : Nat) :
    (S.run c (List.replicate n (.run i x))).shared = ((fun r => S.step x r.2 r.1)^[n] (c.calls i, c.shared)).2 := by
  induction n generalizing c
  case zero => rfl
  case succ n hi => rw [List.replicate_succ, run_cons, hi, calls_act_self, Function.iterate_succ_apply]; rfl

theorem trace_append (es es' : List (Event ρ ι)) :
    S.trace f c (es ++ es') = S.trace f c es ++ S.trace f (S.run c es) es' := by
  induction es generalizing c
  case nil => rfl
  case cons e es hi => simp [trace, hi]

theorem mem_trace : a ∈ S.trace f c events ↔ ∃ pre e post, events = pre ++ e :: post ∧ a ∈ shown f (S.run c pre) e := by
  constructor
  case mp =>
    intro h
    induction events generalizing c
    case nil => cases h
    case cons e es hi =>
      obtain h | h := List.mem_append.mp h
      · exact ⟨[], e, es, rfl, h⟩
      · obtain ⟨pre, e', post, rfl, ha⟩ := hi h
        exact ⟨e :: pre, e', post, rfl, ha⟩
  case mpr =>
    rintro ⟨pre, e, post, rfl, h⟩
    rw [trace_append]
    exact List.mem_append_right _ (List.mem_append_left _ h)

theorem calls_act_of_busy (hbusy : S.isIdle (c.calls i) = false) (h : ∀ x, e ≠ .run i x) :
    (S.act c e).calls i = c.calls i := by
  cases e
  case start j r =>
    simp only [act]
    split_ifs with hidle
    · refine update_of_ne ?_ _ _
      rintro rfl
      exact absurd hidle (by simp [hbusy])
    · rfl
  case run j x =>
    refine calls_act_of_ne ?_ x
    rintro rfl
    exact h x rfl

theorem calls_run_of_busy (hbusy : S.isIdle (c.calls i) = false)
    (h : ∀ x, .run i x ∉ events) : (S.run c events).calls i = c.calls i := by
  induction events generalizing c
  case nil => rfl
  case cons e es hi =>
    have he : (S.act c e).calls i = c.calls i :=
      calls_act_of_busy hbusy fun x he => h x (he ▸ List.mem_cons_self)
    rw [run_cons, hi (by rw [he]; exact hbusy) fun x hx => h x (List.mem_cons_of_mem _ hx), he]

theorem exists_last_run (hfirst : c.calls i ≠ k) (hbegin : ∀ r, S.begin r ≠ k) (h : (S.run c events).calls i = k) :
    ∃ pre x mid, events = pre ++ .run i x :: mid ∧ (∀ x, .run i x ∉ mid) ∧
      (S.act (S.run c pre) (.run i x)).calls i = k := by
  induction events using List.reverseRecOn
  case nil => exact absurd h hfirst
  case append_singleton es e hi =>
    rw [run_append, run_cons, run_nil] at h
    by_cases hrun : ∃ x, e = .run i x
    case pos =>
      obtain ⟨x, rfl⟩ := hrun
      exact ⟨es, x, [], rfl, by simp, h⟩
    case neg =>
      push Not at hrun
      have hsame : (S.run c es).calls i = k := by
        cases e
        case start j r =>
          simp only [act] at h
          split_ifs at h with hidle
          · dsimp only at h
            by_cases hj : i = j
            · subst hj
              rw [update_self] at h
              exact absurd h (hbegin r)
            · rwa [update_of_ne hj] at h
          · exact h
        case run j x =>
          have hj : i ≠ j := by
            rintro rfl
            exact hrun x rfl
          rwa [calls_act_of_ne hj] at h
      obtain ⟨pre, x, mid, rfl, hmid, hlast⟩ := hi hsame
      refine ⟨pre, x, mid ++ [e], by simp, fun x' hx' => ?_, hlast⟩
      obtain hx' | hx' := List.mem_append.mp hx'
      · exact hmid x' hx'
      · exact hrun x' (List.mem_singleton.mp hx').symm

theorem calls_run_of_unused (h : ∀ e ∈ events, e.slot ≠ i) : (S.run c events).calls i = c.calls i := by
  induction events generalizing c
  case nil => rfl
  case cons e es hi =>
    rw [run_cons, hi fun e he => h e (List.mem_cons_of_mem _ he)]
    have hne := (h e List.mem_cons_self).symm
    cases e
    case start j r =>
      simp only [act]
      split_ifs
      · exact update_of_ne hne _ _
      · rfl
    case run j x => exact calls_act_of_ne hne x

theorem MeetsAmong.imp {ok ok' : Config κ σ → Nat → Prop} {events : List (Event ρ ι)} (h : S.MeetsAmong ok c events)
    (himp : ∀ c i, ok c i → ok' c i) : S.MeetsAmong ok' c events := by
  induction events generalizing c
  case nil => trivial
  case cons e es hi =>
    refine ⟨?_, hi h.right⟩
    cases e
    case start => trivial
    case run i x => exact himp c i h.left

theorem run_invariant {ok : Config κ σ → Nat → Prop} {I : Config κ σ → Prop} (hc : I c)
    (hstart : ∀ c i r, I c → S.isIdle (c.calls i) → I { c with calls := Function.update c.calls i (S.begin r) })
    (hstep : ∀ c i x, I c → ok c i → I (S.act c (.run i x)))
    {events : List (Event ρ ι)} (hok : S.MeetsAmong ok c events) : I (S.run c events) := by
  induction events generalizing c
  case nil => exact hc
  case cons e es hi =>
    refine hi ?_ hok.right
    cases e
    case start i r =>
      simp only [act]
      split_ifs with hidle
      · exact hstart c i r hc hidle
      · exact hc
    case run i x => exact hstep c i x hc hok.left

-- If every step that is not allowed leaves a mark that stays, a run without a mark has only steps that are allowed.
theorem meets_of_unmarked {I : Config κ σ → Prop} {B : σ → Prop} (hc : I c)
    (hact : ∀ c e, I c → I (S.act c e)) (hkeep : ∀ x s k, B s → B (S.step x s k).2)
    (hmark : ∀ c i x, I c → ¬ok c.shared (c.calls i) → B (S.act c (.run i x)).shared)
    (h : ¬B (S.run c events).shared) : S.Meets ok c events := by
  have hrun : ∀ (c : Config κ σ) (events : List (Event ρ ι)), B c.shared → B (S.run c events).shared := by
    intro c events hB
    induction events generalizing c
    case nil => exact hB
    case cons e es hi =>
      refine hi _ ?_
      cases e
      case start i r =>
        simp only [act]
        split_ifs <;> exact hB
      case run i x => exact hkeep x _ _ hB
  induction events generalizing c
  case nil => trivial
  case cons e es hi =>
    refine ⟨?_, hi (hact c e hc) h⟩
    cases e
    case start => trivial
    case run i x =>
      by_contra hno
      exact h (hrun _ es (hmark c i x hc hno))

theorem along_invariant {I P Q : Config κ σ → Prop} (hc : I c) (hI : ∀ c, I c → Q c)
    (hact : ∀ c e, P c → I c → I (S.act c e)) (hP : S.Along P c events) : S.Along Q c events := by
  induction events generalizing c
  case nil => exact hI c hc
  case cons e es hi => exact ⟨hI c hc, hi (hact c e hP.left hc) hP.right⟩

theorem run_traced {ok : Config κ σ → Nat → Prop} {α : Type} {f : ι → σ → κ → List α} {E : Event ρ ι → Prop}
    {I : List α → Config κ σ → Prop} {shows : List α} (hc : I shows c)
    (hact : ∀ shows c e, I shows c → E e → Allows ok c e → I (shows ++ shown f c e) (S.act c e))
    {events : List (Event ρ ι)} (hE : ∀ e ∈ events, E e) (hok : S.MeetsAmong ok c events) :
    I (shows ++ S.trace f c events) (S.run c events) := by
  induction events generalizing c shows
  case nil => simpa [trace] using hc
  case cons e es hi =>
    rw [List.forall_mem_cons] at hE
    have hrest := hi (hact shows c e hc hE.left hok.left) hE.right hok.right
    rwa [List.append_assoc] at hrest

-- An assertion about the shared state, one about every call and one about every two calls, none of
-- which a step breaks.
structure Exclusive (S : System ρ κ σ ι) (ok : σ → κ → Prop) (G : σ → Prop) (L : σ → κ → Prop)
    (M : κ → κ → Prop) : Prop where
  symm : ∀ k k', M k k' → M k' k
  begin : ∀ s r, G s → L s (S.begin r)
  beginApart : ∀ r k, M (S.begin r) k
  shared : ∀ x s k, G s → L s k → ok s k → G (S.step x s k).2
  own : ∀ x s k, G s → L s k → ok s k → L (S.step x s k).2 (S.step x s k).1
  other : ∀ x s k k', G s → L s k → ok s k → L s k' → M k k' → L (S.step x s k).2 k'
  apart : ∀ x s k k', G s → L s k → ok s k → L s k' → M k k' → M (S.step x s k).1 k'

-- The assertions hold of the shared state and of all calls.
structure Holds (G : σ → Prop) (L : σ → κ → Prop) (M : κ → κ → Prop) (c : Config κ σ) : Prop where
  shared : G c.shared
  calls : ∀ i, L c.shared (c.calls i)
  apart : ∀ i j, i ≠ j → M (c.calls i) (c.calls j)

section Exclusive

theorem Holds.apart_update (h : Holds G L M c) (hsymm : ∀ k k', M k k' → M k' k)
    (hk : ∀ j, j ≠ i → M k (c.calls j)) (j l : Nat) (hne : j ≠ l) :
    M (Function.update c.calls i k j) (Function.update c.calls i k l) := by
  by_cases hj : j = i
  case pos =>
    subst hj
    rw [update_self, update_of_ne hne.symm]
    exact hk l hne.symm
  case neg =>
    rw [update_of_ne hj]
    by_cases hl : l = i
    case pos =>
      subst hl
      rw [update_self]
      exact hsymm _ _ (hk j hj)
    case neg =>
      rw [update_of_ne hl]
      exact h.apart j l hne

theorem Holds.start (h : Holds G L M c) (hs : S.Exclusive ok G L M) (i : Nat) (r : ρ) :
    Holds G L M { c with calls := Function.update c.calls i (S.begin r) } where
  shared := h.shared
  calls j := by
    by_cases hj : j = i
    · simpa only [hj, update_self] using hs.begin c.shared r h.shared
    · simpa only [update_of_ne hj] using h.calls j
  apart := h.apart_update hs.symm fun j _ => hs.beginApart r (c.calls j)

theorem Holds.act (h : Holds G L M c) (hs : S.Exclusive ok G L M) (i : Nat) (x : ι)
    (hok : ok c.shared (c.calls i)) : Holds G L M (S.act c (.run i x)) where
  shared := hs.shared x _ _ h.shared (h.calls i) hok
  calls j := by
    by_cases hj : j = i
    · rw [hj, calls_act_self]
      exact hs.own x _ _ h.shared (h.calls i) hok
    · rw [calls_act_of_ne hj]
      exact hs.other x _ _ _ h.shared (h.calls i) hok (h.calls j) (h.apart i j (Ne.symm hj))
  apart := h.apart_update hs.symm fun j hj =>
    hs.apart x _ _ _ h.shared (h.calls i) hok (h.calls j) (h.apart i j hj.symm)

theorem Exclusive.run (hs : S.Exclusive ok G L M) (h : Holds G L M c) {events : List (Event ρ ι)}
    (hok : S.Meets ok c events) : Holds G L M (S.run c events) :=
  run_invariant h (fun _ i r hc _ => hc.start hs i r) (fun _ i x hc hk => hc.act hs i x hk) hok

end Exclusive

-- The same without an assertion about two calls: none that a step of another call breaks.
structure Stable (S : System ρ κ σ ι) (ok : σ → κ → Prop) (G : σ → Prop) (L : σ → κ → Prop) : Prop where
  begin : ∀ s r, G s → L s (S.begin r)
  shared : ∀ x s k, G s → L s k → ok s k → G (S.step x s k).2
  own : ∀ x s k, G s → L s k → ok s k → L (S.step x s k).2 (S.step x s k).1
  other : ∀ x s k k', G s → L s k → ok s k → L s k' → L (S.step x s k).2 k'

theorem Stable.exclusive (h : S.Stable ok G L) : S.Exclusive ok G L fun _ _ => True where
  symm _ _ _ := trivial
  begin := h.begin
  beginApart _ _ := trivial
  shared := h.shared
  own := h.own
  other x s k k' hG hL hk hL' _ := h.other x s k k' hG hL hk hL'
  apart _ _ _ _ _ _ _ _ _ := trivial

theorem Stable.run (h : S.Stable ok G L) (hG : G c.shared)
    (hL : ∀ i, L c.shared (c.calls i)) (hok : S.Meets ok c events) :
    G (S.run c events).shared ∧ ∀ i, L (S.run c events).shared ((S.run c events).calls i) := by
  have hrun := h.exclusive.run ⟨hG, hL, fun _ _ _ => trivial⟩ hok
  exact ⟨hrun.shared, hrun.calls⟩

theorem meets_true (c : Config κ σ) (events : List (Event ρ ι)) : S.Meets (fun _ _ => True) c events := by
  induction events generalizing c
  case nil => trivial
  case cons e es hi =>
    refine ⟨?_, hi _⟩
    cases e
    all_goals trivial

-- If every step is allowed, the assertions hold after every run from a state in which no call is under way.
theorem Stable.always {G : σ → Prop} {L : σ → κ → Prop} (h : S.Stable (fun _ _ => True) G L) {s : σ} (hG : G s)
    (hL : L s S.idle) (events : List (Event ρ ι)) :
    G (S.run (S.init s) events).shared ∧
      ∀ i, L (S.run (S.init s) events).shared ((S.run (S.init s) events).calls i) :=
  h.run hG (fun _ => hL) (meets_true _ _)

-- Something has been done or some call is to do it. This stays so if no other call forgets about it, and it is so for
-- the call that takes a step wherever no other call is to do it.
theorem done_or_exists_update {i : Nat} {W W' : κ → Prop} (h : D ∨ ∃ j, W (calls j))
    (hstep : (¬∃ j, j ≠ i ∧ W (calls j)) → D ∨ W (calls i) → D' ∨ W' k) (hother : ∀ j, W (calls j) → W' (calls j)) :
    D' ∨ ∃ j, W' (Function.update calls i k j) := by
  by_cases hj : ∃ j, j ≠ i ∧ W (calls j)
  case pos =>
    obtain ⟨j, hne, hj⟩ := hj
    exact .inr ⟨j, by rw [update_of_ne hne]; exact hother j hj⟩
  case neg =>
    have hself : D ∨ W (calls i) := by
      refine h.imp_right fun ⟨j, hw⟩ => ?_
      by_cases hij : j = i
      · exact hij ▸ hw
      · exact absurd ⟨j, hij, hw⟩ hj
    exact (hstep hj hself).imp_right fun hk => ⟨i, by rwa [update_self]⟩

end System

def Carried {κ α : Type} (f : κ → Option α) (calls : Nat → κ) (l : List α) : Prop :=
  ∃ slots : List Nat, slots.Nodup ∧ (∀ i ∉ slots, f (calls i) = none) ∧ (slots.filterMap fun i => f (calls i)).Perm l

theorem Carried.update {calls : Nat → κ} {l : List α} (h : Carried f calls l) (i : Nat) (k : κ) :
    ∃ rest, l.Perm ((f (calls i)).toList ++ rest) ∧ Carried f (Function.update calls i k) ((f k).toList ++ rest) := by
  -- The slot may be counted in, whether it carries something or not.
  obtain ⟨slots, hnodup, hnone, hperm, hi⟩ : ∃ slots : List Nat, slots.Nodup ∧ (∀ i ∉ slots, f (calls i) = none) ∧
      (slots.filterMap fun i => f (calls i)).Perm l ∧ i ∈ slots := by
    obtain ⟨slots, hnodup, hnone, hperm⟩ := h
    by_cases hi : i ∈ slots
    · exact ⟨slots, hnodup, hnone, hperm, hi⟩
    · refine ⟨i :: slots, List.nodup_cons.mpr ⟨hi, hnodup⟩, fun j hj => hnone j fun h => hj (List.mem_cons_of_mem _ h), ?_,
        List.mem_cons_self⟩
      rwa [@List.filterMap_cons_none _ _ (fun i => f (calls i)) _ _ (hnone i hi)]
  have hslots : slots.Perm (i :: slots.erase i) := List.perm_cons_erase hi
  have hcons (g : Nat → Option α) : (slots.filterMap g).Perm ((g i).toList ++ (slots.erase i).filterMap g) := by
    refine (hslots.filterMap g).trans ?_
    cases hg : g i
    case none => rw [List.filterMap_cons_none hg]; rfl
    case some a => rw [List.filterMap_cons_some hg]; rfl
  refine ⟨(slots.erase i).filterMap fun i => f (calls i), hperm.symm.trans (hcons _), slots, hnodup, ?_, ?_⟩
  · intro j hj
    rw [update_of_ne (by rintro rfl; exact hj hi)]
    exact hnone j hj
  · have hrest : (slots.erase i).filterMap (fun j => f (Function.update calls i k j)) =
        (slots.erase i).filterMap fun j => f (calls j) := by
      refine List.filterMap_congr fun j hj => ?_
      rw [update_of_ne (by rintro rfl; exact hnodup.not_mem_erase hj)]
    have := hcons fun j => f (Function.update calls i k j)
    rwa [hrest, update_self] at this

end Interleave
