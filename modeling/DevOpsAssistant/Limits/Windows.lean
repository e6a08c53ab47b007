import DevOpsAssistant.Core.RateLimit
import Mathlib.Data.List.Perm.Subperm

/-!
# The limit in every window, and the calls it refuses

* `RateCall`, `RateState`: calls of the limiter, and the calls it has admitted.
* `Apart`: the call does not find its own name in a set that has room.
* `Retained`: the calls of the last minute are in the set, each under its own name.
* **`admitted_le_limit`**: no window of a minute has more admitted calls than the limit, while every
  call is apart.
* `Tidy`: a key holds at most as many entries as the limit allows, each with a time that has passed.
* `redis_serve`: what a call leaves in Redis.
* `Inside`: the entries under a key are some of those of a set.
* **`retry_admitted`**: a call that comes when a refused one was told to retry is admitted.
-/

namespace DevOps

open RateLimiter

/-- A call of the limiter; `available` if Redis runs the script. -/
structure RateCall where
  category : RateLimitCategory
  identity : String
  available : Bool
  now : ℤ

/-- What is in Redis, and the calls that have been admitted, the latest first. -/
structure RateState where
  redis : Redis
  admitted : List RateCall

variable (settings : RateLimitSettings)

namespace RateState

/-- The state after a call. -/
def serve (x : RateState) (a : RateCall) : RateState :=
  match check settings x.redis a.available a.category a.identity a.now with
  | (.ok result, redis) => ⟨redis, if result.allowed then a :: x.admitted else x.admitted⟩
  | (.error _, redis) => ⟨redis, x.admitted⟩

/-- The state after calls that come one after another. -/
def serveAll (x : RateState) (calls : List RateCall) : RateState := calls.foldl (serve settings) x

/-- The set in which the script counts the calls of the last minute. -/
def counted (x : RateState) (a : RateCall) : SortedSet :=
  ((x.redis (key settings a.category a.identity)).current a.now).zremrangebyscore 0 (a.now - windowMs)

/-- The call is counted, and does not find its own name in a set that has room. -/
structure Apart (x : RateState) (a : RateCall) : Prop where
  enabled : settings.rateLimitEnabled = true
  answered : a.available = true ∨ settings.rateLimitFailOpen = false
  named : (x.counted settings a).has (member a.now a.identity) = true →
    limitFor settings a.category ≤ (x.counted settings a).zcard

/-- Each of the calls is apart when it comes. -/
def AllApart (x : RateState) : List RateCall → Prop
  | [] => True
  | a :: calls => x.Apart settings a ∧ (x.serve settings a).AllApart calls

end RateState

/-- The call is on the key of the category and the identity. -/
def RateCall.on (category : RateLimitCategory) (identity : String) (a : RateCall) : Bool :=
  a.category = category && a.identity = identity

/-- The admitted calls on a key. -/
def RateState.admittedOn (x : RateState) (category : RateLimitCategory) (identity : String) :
    List RateCall := x.admitted.filter (RateCall.on category identity)

/-- The call is in the minute from `start` on. -/
def RateCall.within (start : ℤ) (a : RateCall) : Bool := start ≤ a.now && a.now < start + windowMs

/-- The calls in the minute from `start` on. -/
def inWindow (start : ℤ) (calls : List RateCall) : List RateCall := calls.filter (RateCall.within start)

section Keys

variable {settings}

/-- Calls of different categories or identities are counted under different keys. -/
theorem key_injective {c c' : RateLimitCategory} {i i' : String}
    (h : key settings c i = key settings c' i') : c = c' ∧ i = i' := by
  have h := congrArg String.toList h
  simp only [key, String.toList_append, List.append_assoc, List.append_cancel_left_eq] at h
  cases c <;> cases c' <;> simp [RateLimitCategory.value] at h ⊢ <;> exact String.ext h

theorem within_iff {start : ℤ} {a : RateCall} :
    a.within start = true ↔ start ≤ a.now ∧ a.now < start + windowMs := by simp [RateCall.within]

theorem on_iff {c : RateLimitCategory} {i : String} {a : RateCall} :
    a.on c i = true ↔ a.category = c ∧ a.identity = i := by simp [RateCall.on]

end Keys

/-! ## One call -/

/-- What a call on a key does: it is admitted and counted under its name, or the calls that count stay. -/
inductive Served (x y : RateState) (a : RateCall) : Prop where
  | admitted (room : ((x.counted settings a).zcard : ℤ) < limitFor settings a.category)
      (admitted : y.admitted = a :: x.admitted)
      (redis : y.redis = Function.update x.redis (key settings a.category a.identity)
        ⟨(x.counted settings a).zadd a.now (member a.now a.identity), some (a.now + windowMs + 1000)⟩)
  | refused {expiresAt : Option ℤ} (admitted : y.admitted = x.admitted)
      (redis : y.redis = Function.update x.redis (key settings a.category a.identity)
        ⟨x.counted settings a, expiresAt⟩)
      (alive : ∀ e, (x.redis (key settings a.category a.identity)).expiresAt = some e → a.now < e →
        expiresAt = some e)
  | failed (admitted : y.admitted = x.admitted) (redis : y.redis = x.redis)

section Calls

variable {settings} {x : RateState} {a : RateCall} {c : RateLimitCategory} {i : String} {t : ℤ}

theorem serve_cases (h : x.Apart settings a) : Served settings x (x.serve settings a) a := by
  cases hav : a.available with
  | false =>
    have hopen : settings.rateLimitFailOpen = false := h.answered.resolve_left (by simp [hav])
    refine .failed ?_ ?_ <;> simp [RateState.serve, check, h.enabled, hav, hopen]
  | true =>
    by_cases hroom : ((x.counted settings a).zcard : ℤ) < limitFor settings a.category
    · refine .admitted hroom ?_ ?_
      · simp only [RateState.counted] at hroom
        simp [RateState.serve, check, h.enabled, hav, slidingWindow, hroom, ofScript]
      · have hexpire : a.now + (-(-windowMs / 1000) + 1) * 1000 = a.now + windowMs + 1000 := by
          simp only [windowMs]
          omega
        simp only [RateState.counted] at hroom ⊢
        simp [RateState.serve, check, h.enabled, hav, slidingWindow, hroom, hexpire]
    · let expiresAt := (x.redis (key settings a.category a.identity)).expiresAt
      refine @Served.refused settings x _ a (if expiresAt.any (· ≤ a.now) then none else expiresAt)
        ?_ ?_ ?_
      · simp only [RateState.counted] at hroom
        simp [RateState.serve, check, h.enabled, hav, slidingWindow, hroom, ofScript]
      · simp only [RateState.counted] at hroom ⊢
        simp [RateState.serve, check, h.enabled, hav, slidingWindow, hroom, expiresAt]
      · intro e he hlt
        simp [expiresAt, he, hlt]

theorem counted_mem {e : String × ℤ} :
    e ∈ (x.counted settings a).entries ↔
      e ∈ ((x.redis (key settings a.category a.identity)).current a.now).entries ∧
        ¬ (0 ≤ e.2 ∧ e.2 ≤ a.now - windowMs) := by
  simp only [RateState.counted, SortedSet.zremrangebyscore, SortedSet.keep, List.mem_filter,
    decide_eq_true_eq]

/-! ## The invariant -/

/-- The name of a call and its time. -/
def entryOf (a : RateCall) : String × ℤ := (member a.now a.identity, a.now)

/-- The admitted calls on a key came one after another, none later than `t`, and those of the minute
before `t` are in the set, which will not expire before they are a minute old. -/
structure Retained (settings : RateLimitSettings) (c : RateLimitCategory) (i : String) (x : RateState)
    (t : ℤ) : Prop where
  ordered : (x.admittedOn c i).Pairwise fun a b => b.now < a.now
  past : ∀ a ∈ x.admittedOn c i, a.now ≤ t
  stored : ∀ a ∈ x.admittedOn c i, t < a.now + windowMs → entryOf a ∈ (x.redis (key settings c i)).set.entries
  alive : ∀ a ∈ x.admittedOn c i, t < a.now + windowMs →
    ∃ e, (x.redis (key settings c i)).expiresAt = some e ∧ a.now + windowMs < e

/-- The calls of the last minute are among those that the script counts. -/
theorem Retained.mem_counted (r : Retained settings c i x t) (ha : a.on c i = true) (ht : t ≤ a.now)
    {b : RateCall} (hb : b ∈ x.admittedOn c i) (hlt : a.now < b.now + windowMs) :
    entryOf b ∈ (x.counted settings a).entries := by
  obtain ⟨rfl, rfl⟩ := on_iff.mp ha
  obtain ⟨e, he, hle⟩ := r.alive b hb (by omega)
  rw [counted_mem]
  refine ⟨?_, fun hold => ?_⟩
  · have hnow : ¬ e ≤ a.now := by omega
    have hcur : (x.redis (key settings a.category a.identity)).current a.now =
        (x.redis (key settings a.category a.identity)).set := by simp [RedisKey.current, he, hnow]
    rw [hcur]
    exact r.stored b hb (by omega)
  · simp only [entryOf] at hold
    omega

/-- The calls of the last minute are at most as many as the script counts. -/
theorem Retained.length_le (r : Retained settings c i x t) (ha : a.on c i = true) (ht : t ≤ a.now)
    {p : RateCall → Bool} (hp : ∀ b, p b = true → a.now < b.now + windowMs) :
    ((x.admittedOn c i).filter p).length ≤ (x.counted settings a).zcard := by
  have hnodup : (((x.admittedOn c i).filter p).map entryOf).Nodup := by
    rw [List.nodup_iff_pairwise_ne, List.pairwise_map]
    refine (r.ordered.filter p).imp fun {b b'} hlt heq => ?_
    have hnow : b.now = b'.now := (Prod.mk.inj heq).2
    omega
  have hsub : ((x.admittedOn c i).filter p).map entryOf ⊆ (x.counted settings a).entries := by
    intro e he
    obtain ⟨b, hb, rfl⟩ := List.mem_map.mp he
    obtain ⟨hb, hpb⟩ := List.mem_filter.mp hb
    exact r.mem_counted ha ht hb (hp b hpb)
  have hle := (hnodup.subperm hsub).length_le
  rwa [List.length_map] at hle

/-- A call on another key leaves what is counted here. -/
theorem Retained.other (r : Retained settings c i x t) {y : RateState} (hy : Served settings x y a)
    (ha : a.on c i = false) : Retained settings c i y t ∧ y.admittedOn c i = x.admittedOn c i := by
  have hkey : key settings a.category a.identity ≠ key settings c i := by
    intro h
    obtain ⟨h₁, h₂⟩ := key_injective h
    rw [on_iff.mpr ⟨h₁, h₂⟩] at ha
    cases ha
  have hsame : y.admittedOn c i = x.admittedOn c i ∧
      y.redis (key settings c i) = x.redis (key settings c i) := by
    cases hy with
    | admitted room admitted redis =>
      rw [RateState.admittedOn, admitted, redis, List.filter_cons_of_neg (by simp [ha]),
        Function.update_of_ne hkey.symm]
      exact ⟨rfl, rfl⟩
    | refused admitted redis =>
      rw [RateState.admittedOn, admitted, redis, Function.update_of_ne hkey.symm]
      exact ⟨rfl, rfl⟩
    | failed admitted redis =>
      rw [RateState.admittedOn, admitted, redis]
      exact ⟨rfl, rfl⟩
  obtain ⟨hadm, hredis⟩ := hsame
  refine ⟨⟨?_, ?_, ?_, ?_⟩, hadm⟩
  · rw [hadm]; exact r.ordered
  · rw [hadm]; exact r.past
  · rw [hadm, hredis]; exact r.stored
  · rw [hadm, hredis]; exact r.alive

/-- **A call keeps what counts in the set.** -/
theorem Retained.serve (r : Retained settings c i x t) (h : x.Apart settings a) (ha : a.on c i = true)
    (ht : t ≤ a.now) : Retained settings c i (x.serve settings a) a.now := by
  obtain ⟨rfl, rfl⟩ := on_iff.mp ha
  have hpast : ∀ b ∈ x.admittedOn a.category a.identity, b.now ≤ a.now := fun b hb =>
    (r.past b hb).trans ht
  cases serve_cases h with
  | admitted room admitted redis =>
    have hadm : (x.serve settings a).admittedOn a.category a.identity =
        a :: x.admittedOn a.category a.identity := by
      rw [RateState.admittedOn, admitted, List.filter_cons_of_pos ha]
      rfl
    -- a call in the same millisecond would have been found in the set
    have hnew : ∀ b ∈ x.admittedOn a.category a.identity, a.now < b.now + windowMs →
        member b.now b.identity ≠ member a.now a.identity := by
      intro b hb hlt heq
      have hhas : (x.counted settings a).has (member a.now a.identity) = true := by
        rw [SortedSet.has, List.any_eq_true]
        exact ⟨entryOf b, r.mem_counted ha ht hb hlt, decide_eq_true heq⟩
      exact absurd room (not_lt.mpr (h.named hhas))
    refine ⟨?_, ?_, ?_, ?_⟩
    · rw [hadm, List.pairwise_cons]
      refine ⟨fun b hb => lt_of_le_of_ne (hpast b hb) fun heq => ?_, r.ordered⟩
      obtain ⟨-, hid⟩ := on_iff.mp (List.mem_filter.mp hb).2
      exact hnew b hb (by simp only [windowMs]; omega) (by rw [heq, hid])
    · rw [hadm]
      intro b hb
      rcases List.mem_cons.mp hb with rfl | hb
      · exact le_refl _
      · exact hpast b hb
    · rw [hadm, redis, Function.update_self]
      intro b hb hlt
      rcases List.mem_cons.mp hb with rfl | hb
      · exact List.mem_cons_self
      · refine List.mem_cons_of_mem _ (List.mem_filter.mpr ⟨r.mem_counted ha ht hb hlt, ?_⟩)
        exact decide_eq_true (hnew b hb hlt)
    · rw [hadm, redis, Function.update_self]
      intro b hb _
      refine ⟨_, rfl, ?_⟩
      rcases List.mem_cons.mp hb with rfl | hb
      · omega
      · have := hpast b hb
        omega
  | refused admitted redis alive =>
    have hadm : (x.serve settings a).admittedOn a.category a.identity =
        x.admittedOn a.category a.identity := by rw [RateState.admittedOn, admitted]; rfl
    refine ⟨?_, ?_, ?_, ?_⟩
    · rw [hadm]; exact r.ordered
    · rw [hadm]; exact hpast
    · rw [hadm, redis, Function.update_self]
      exact fun b hb hlt => r.mem_counted ha ht hb hlt
    · rw [hadm, redis, Function.update_self]
      intro b hb hlt
      obtain ⟨e, he, hle⟩ := r.alive b hb (by omega)
      exact ⟨e, alive e he (by omega), hle⟩
  | failed admitted redis =>
    have hadm : (x.serve settings a).admittedOn a.category a.identity =
        x.admittedOn a.category a.identity := by rw [RateState.admittedOn, admitted]; rfl
    refine ⟨?_, ?_, ?_, ?_⟩
    · rw [hadm]; exact r.ordered
    · rw [hadm]; exact hpast
    · rw [hadm, redis]
      exact fun b hb hlt => r.stored b hb (by omega)
    · rw [hadm, redis]
      exact fun b hb hlt => r.alive b hb (by omega)

/-- No window of a minute has more admitted calls on the key than the limit. -/
def WithinLimit (settings : RateLimitSettings) (c : RateLimitCategory) (i : String) (x : RateState) :
    Prop :=
  ∀ start, ((inWindow start (x.admittedOn c i)).length : ℤ) ≤ limitFor settings c

/-- **A call keeps every window within the limit.** -/
theorem WithinLimit.serve (w : WithinLimit settings c i x) (r : Retained settings c i x t)
    (h : x.Apart settings a) (ha : a.on c i = true) (ht : t ≤ a.now) :
    WithinLimit settings c i (x.serve settings a) := by
  obtain ⟨rfl, rfl⟩ := on_iff.mp ha
  intro start
  cases serve_cases h with
  | admitted room admitted redis =>
    have hadm : (x.serve settings a).admittedOn a.category a.identity =
        a :: x.admittedOn a.category a.identity := by
      rw [RateState.admittedOn, admitted, List.filter_cons_of_pos ha]
      rfl
    rw [hadm, inWindow]
    by_cases hin : a.within start = true
    · rw [List.filter_cons_of_pos hin, List.length_cons]
      have hstart := within_iff.mp hin
      have hle := r.length_le (p := RateCall.within start) ha ht fun b hb => by
        have := within_iff.mp hb
        omega
      push_cast
      omega
    · rw [List.filter_cons_of_neg hin]
      exact w start
  | refused admitted | failed admitted =>
    rw [RateState.admittedOn, admitted]
    exact w start

/-- **Calls keep what counts in the set, and every window within the limit.** -/
theorem within_serveAll : ∀ (calls : List RateCall) {x : RateState} {t : ℤ},
    Retained settings c i x t → WithinLimit settings c i x → x.AllApart settings calls →
    (∀ a ∈ calls, a.on c i = true → t ≤ a.now) →
    (calls.filter (RateCall.on c i)).Pairwise (fun a b => a.now ≤ b.now) →
    WithinLimit settings c i (x.serveAll settings calls)
  | [], _, _, _, w, _, _, _ => w
  | a :: calls, x, t, r, w, ⟨h, hall⟩, hle, hsorted => by
    by_cases ha : a.on c i = true
    · have ht := hle a List.mem_cons_self ha
      rw [List.filter_cons_of_pos ha, List.pairwise_cons] at hsorted
      exact within_serveAll calls (r.serve h ha ht) (w.serve r h ha ht) hall
        (fun b hb hon => hsorted.1 b (List.mem_filter.mpr ⟨hb, hon⟩)) hsorted.2
    · have hoff : a.on c i = false := by simpa using ha
      obtain ⟨r', hadm⟩ := r.other (serve_cases h) hoff
      rw [List.filter_cons_of_neg ha] at hsorted
      refine within_serveAll calls r' (fun start => ?_) hall
        (fun b hb => hle b (List.mem_cons_of_mem _ hb)) hsorted
      rw [hadm]
      exact w start

end Calls

/-- No call of the list is earlier than some time. -/
theorem exists_earliest : ∀ calls : List RateCall, ∃ t : ℤ, ∀ a ∈ calls, t ≤ a.now
  | [] => ⟨0, fun _ ha => nomatch ha⟩
  | a :: calls => by
    obtain ⟨t, ht⟩ := exists_earliest calls
    refine ⟨min t a.now, fun b hb => ?_⟩
    rcases List.mem_cons.mp hb with rfl | hb
    · exact min_le_right _ _
    · exact (min_le_left _ _).trans (ht b hb)

/-- **No window has more admitted calls than the limit**, in every run of the limiter whose calls do
not find their own names in a set that has room. -/
theorem admitted_le_limit (redis : Redis) (calls : List RateCall) (c : RateLimitCategory) (i : String)
    (hlimit : 1 ≤ limitFor settings c)
    (hsorted : (calls.filter (RateCall.on c i)).Pairwise fun a b => a.now ≤ b.now)
    (hall : RateState.AllApart settings ⟨redis, []⟩ calls) :
    WithinLimit settings c i (RateState.serveAll settings ⟨redis, []⟩ calls) := by
  obtain ⟨t, ht⟩ := exists_earliest calls
  refine within_serveAll calls (t := t) ?_ (fun start => ?_) hall (fun a ha _ => ht a ha) hsorted
  · exact ⟨.nil, fun _ hb => (nomatch hb), fun _ hb => (nomatch hb), fun _ hb => (nomatch hb)⟩
  · simp only [RateState.admittedOn, List.filter_nil, inWindow, List.length_nil]
    omega

/-- A call of one user to a language model. -/
def RateCall.trial (now : ℤ) : RateCall := ⟨.llm, "user:1", true, now⟩

/-- The limit of two calls that the tests of the limiter set. -/
def RateLimitSettings.trial : RateLimitSettings := { rateLimitLlmPerMinute := 2 }

/-- Three calls, of which the third is refused. -/
theorem admitted_le_limit_trial :
    RateState.AllApart .trial ⟨.empty, []⟩ [.trial 5000, .trial 5001, .trial 5002] ∧
      WithinLimit .trial .llm "user:1"
        (RateState.serveAll .trial ⟨.empty, []⟩ [.trial 5000, .trial 5001, .trial 5002]) := by
  have hall : RateState.AllApart .trial ⟨.empty, []⟩ [.trial 5000, .trial 5001, .trial 5002] :=
    ⟨⟨rfl, .inl rfl, by decide⟩, ⟨rfl, .inl rfl, by decide⟩, ⟨rfl, .inl rfl, by decide⟩, trivial⟩
  exact ⟨hall, admitted_le_limit .trial .empty _ .llm "user:1" (by decide) (by decide) hall⟩

/-- Three calls in one millisecond: all are admitted, under one name. -/
theorem not_admitted_le_limit :
    1 ≤ limitFor .trial .llm ∧
    ([.trial 5000, .trial 5000, .trial 5000] : List RateCall).Pairwise (fun a b => a.now ≤ b.now) ∧
    ¬ WithinLimit .trial .llm "user:1"
      (RateState.serveAll .trial ⟨.empty, []⟩ [.trial 5000, .trial 5000, .trial 5000]) := by
  refine ⟨by decide, by decide, fun h => ?_⟩
  exact absurd (h 5000) (by decide)

end DevOps

namespace DevOps

open RateLimiter

variable (settings : RateLimitSettings)

/-! ## What a key holds -/

/-- The key of the category `c` and the identity `i` holds at most as many entries as the limit, each with
a time from `0` to `t`. -/
structure Tidy (c : RateLimitCategory) (i : String) (x : RateState) (t : ℤ) : Prop where
  few : ((x.redis (key settings c i)).set.zcard : ℤ) ≤ limitFor settings c
  past : ∀ e ∈ (x.redis (key settings c i)).set.entries, 0 ≤ e.2 ∧ e.2 ≤ t

/-- The entries under the key are some of those of `z`. -/
def Inside (c : RateLimitCategory) (i : String) (z : SortedSet) (x : RateState) : Prop :=
  ∀ e ∈ (x.redis (key settings c i)).set.entries, e ∈ z.entries

section Calls

variable {settings} {x : RateState} {a : RateCall} {c : RateLimitCategory} {i : String} {t : ℤ}

variable (settings) in
/-- What a call leaves in Redis: its own entry, or what is left of the key, or what there was. -/
theorem redis_serve (x : RateState) (a : RateCall) :
    (((x.counted settings a).zcard : ℤ) < limitFor settings a.category ∧
      (x.serve settings a).admitted = a :: x.admitted ∧
      ∃ e, (x.serve settings a).redis = Function.update x.redis (key settings a.category a.identity)
        ⟨(x.counted settings a).zadd a.now (member a.now a.identity), e⟩) ∨
    (∃ e, (x.serve settings a).redis = Function.update x.redis (key settings a.category a.identity)
        ⟨x.counted settings a, e⟩) ∨
    (x.serve settings a).redis = x.redis := by
  cases hon : settings.rateLimitEnabled with
  | false => exact .inr (.inr (by simp [RateState.serve, check, hon]))
  | true =>
    cases hav : a.available with
    | false =>
      refine .inr (.inr ?_)
      cases hopen : settings.rateLimitFailOpen <;> simp [RateState.serve, check, hon, hav, hopen]
    | true =>
      by_cases hroom : ((x.counted settings a).zcard : ℤ) < limitFor settings a.category
      · refine .inl ⟨hroom, ?_, ?_⟩
        · simp only [RateState.counted] at hroom
          simp [RateState.serve, check, hon, hav, slidingWindow, hroom, ofScript]
        · simp only [RateState.counted] at hroom ⊢
          simp only [RateState.serve, check, hon, hav, slidingWindow, hroom, Bool.not_true,
            Bool.false_eq_true, if_false, if_true]
          exact ⟨_, rfl⟩
      · refine .inr (.inl ?_)
        simp only [RateState.counted] at hroom ⊢
        simp only [RateState.serve, check, hon, hav, slidingWindow, hroom, Bool.not_true,
          Bool.false_eq_true, if_false, if_true]
        exact ⟨_, rfl⟩

/-- What the script counts is under the key. -/
theorem mem_of_counted {e : String × ℤ} (h : e ∈ (x.counted settings a).entries) :
    e ∈ (x.redis (key settings a.category a.identity)).set.entries := by
  have hcur := (counted_mem.mp h).1
  unfold RedisKey.current at hcur
  split at hcur
  · cases hcur
  · exact hcur

variable (settings) in
theorem zcard_counted_le (x : RateState) (a : RateCall) :
    (x.counted settings a).zcard ≤ (x.redis (key settings a.category a.identity)).set.zcard := by
  have hnodup := List.Nodup.of_map _ (x.counted settings a).nodup
  exact (hnodup.subperm fun e => mem_of_counted).length_le

theorem zcard_zadd_le (z : SortedSet) (score : ℤ) (member : String) :
    (z.zadd score member).zcard ≤ z.zcard + 1 := by
  simp only [SortedSet.zadd, SortedSet.keep, SortedSet.zcard, List.length_cons]
  exact Nat.succ_le_succ (List.length_filter_le _ _)

/-- A call on another key leaves this key. -/
theorem redis_serve_other (ha : a.on c i = false) :
    (x.serve settings a).redis (key settings c i) = x.redis (key settings c i) := by
  have hkey : key settings c i ≠ key settings a.category a.identity := by
    intro h
    obtain ⟨h₁, h₂⟩ := key_injective h
    rw [on_iff.mpr ⟨h₁.symm, h₂.symm⟩] at ha
    cases ha
  rcases redis_serve settings x a with ⟨-, -, e, h⟩ | ⟨e, h⟩ | h
  · rw [h, Function.update_of_ne hkey]
  · rw [h, Function.update_of_ne hkey]
  · rw [h]

/-- **A call keeps a key tidy.** -/
theorem Tidy.serve (k : Tidy settings c i x t) (hlimit : 0 ≤ limitFor settings c) (ht : t ≤ a.now)
    (hclock : 0 ≤ a.now) : Tidy settings c i (x.serve settings a) a.now := by
  have hold : ∀ e ∈ (x.redis (key settings c i)).set.entries, 0 ≤ e.2 ∧ e.2 ≤ a.now := fun e he =>
    ⟨(k.past e he).1, (k.past e he).2.trans ht⟩
  cases ha : a.on c i with
  | false =>
    refine ⟨?_, ?_⟩
    · rw [redis_serve_other ha]
      exact k.few
    · rw [redis_serve_other ha]
      exact hold
  | true =>
    obtain ⟨rfl, rfl⟩ := on_iff.mp ha
    rcases redis_serve settings x a with ⟨hroom, -, e, h⟩ | ⟨e, h⟩ | h
    · refine ⟨?_, ?_⟩
      · have := zcard_zadd_le (x.counted settings a) a.now (member a.now a.identity)
        rw [h, Function.update_self]
        simp only
        omega
      · rw [h, Function.update_self]
        intro e' he'
        rcases List.mem_cons.mp he' with rfl | he'
        · exact ⟨hclock, le_refl _⟩
        · exact hold e' (mem_of_counted (List.mem_filter.mp he').1)
    · refine ⟨?_, ?_⟩
      · have := zcard_counted_le settings x a
        have := k.few
        rw [h, Function.update_self]
        simp only
        omega
      · rw [h, Function.update_self]
        exact fun e' he' => hold e' (mem_of_counted he')
    · refine ⟨?_, ?_⟩
      · rw [h]
        exact k.few
      · rw [h]
        exact hold

/-- **Calls keep a key tidy.** -/
theorem Tidy.serveAll (hlimit : 0 ≤ limitFor settings c) : ∀ (calls : List RateCall) {x : RateState}
    {t : ℤ}, Tidy settings c i x t → (∀ a ∈ calls, t ≤ a.now) → (∀ a ∈ calls, 0 ≤ a.now) →
    calls.Pairwise (fun a b => a.now ≤ b.now) → ∀ {u : ℤ}, t ≤ u → (∀ a ∈ calls, a.now ≤ u) →
    Tidy settings c i (x.serveAll settings calls) u
  | [], _, _, k, _, _, _, _, hu, _ => ⟨k.few, fun e he => ⟨(k.past e he).1, (k.past e he).2.trans hu⟩⟩
  | a :: calls, _, _, k, hle, hclock, hsorted, _, _, hlast => by
    rw [List.pairwise_cons] at hsorted
    exact Tidy.serveAll hlimit calls
      (k.serve hlimit (hle a List.mem_cons_self) (hclock a List.mem_cons_self)) hsorted.1
      (fun b hb => hclock b (List.mem_cons_of_mem _ hb)) hsorted.2 (hlast a List.mem_cons_self)
      fun b hb => hlast b (List.mem_cons_of_mem _ hb)

/-! ## Until the call is made again -/

/-- A call that is not admitted on the key adds nothing to it. -/
theorem Inside.serve {z : SortedSet} (h : Inside settings c i z x)
    (hnone : (x.serve settings a).admittedOn c i = x.admittedOn c i) :
    Inside settings c i z (x.serve settings a) := by
  intro e he
  cases ha : a.on c i with
  | false =>
    rw [redis_serve_other ha] at he
    exact h e he
  | true =>
    obtain ⟨rfl, rfl⟩ := on_iff.mp ha
    rcases redis_serve settings x a with ⟨-, hadm, -⟩ | ⟨e', hr⟩ | hr
    · rw [RateState.admittedOn, hadm, List.filter_cons_of_pos ha] at hnone
      exact absurd (congrArg List.length hnone) (Nat.succ_ne_self _)
    · rw [hr, Function.update_self] at he
      exact h e (mem_of_counted he)
    · rw [hr] at he
      exact h e he

/-- None of the calls is admitted on the key. -/
def NoneAdmitted (settings : RateLimitSettings) (c : RateLimitCategory) (i : String) (x : RateState) :
    List RateCall → Prop
  | [] => True
  | a :: calls => (x.serve settings a).admittedOn c i = x.admittedOn c i ∧
      NoneAdmitted settings c i (x.serve settings a) calls

theorem Inside.serveAll {z : SortedSet} : ∀ (calls : List RateCall) {x : RateState},
    Inside settings c i z x → NoneAdmitted settings c i x calls →
    Inside settings c i z (x.serveAll settings calls)
  | [], _, h, _ => h
  | _ :: calls, _, h, ⟨hnone, hrest⟩ => Inside.serveAll calls (h.serve hnone) hrest

/-- A refused call: Redis has replied that the key is full, and says when its oldest entry leaves. -/
theorem refused_cases {result : RateLimitResult}
    (h : (check settings x.redis a.available a.category a.identity a.now).1 = .ok result)
    (hrefused : result.allowed = false) :
    settings.rateLimitEnabled = true ∧
      limitFor settings a.category ≤ (x.counted settings a).zcard ∧
      (∃ e, (x.serve settings a).redis = Function.update x.redis (key settings a.category a.identity)
        ⟨x.counted settings a, e⟩) ∧
      ∀ score, (x.counted settings a).oldest = some score →
        score + windowMs ≤ a.now + 1000 * result.retryAfterSeconds := by
  unfold check at h
  split at h
  · cases h
    cases hrefused
  next hon =>
  have hon : settings.rateLimitEnabled = true := by simpa using hon
  split at h
  · next hav =>
    by_cases hroom : ((x.counted settings a).zcard : ℤ) < limitFor settings a.category
    · simp only [RateState.counted] at hroom
      simp only [slidingWindow, hroom, if_true] at h
      cases h
      cases hrefused
    · refine ⟨hon, not_lt.mp hroom, ?_, fun score hscore => ?_⟩
      · simp only [RateState.counted] at hroom ⊢
        simp only [RateState.serve, check, hon, hav, slidingWindow, hroom, Bool.not_true,
          Bool.false_eq_true, if_false, if_true]
        exact ⟨_, rfl⟩
      · simp only [RateState.counted] at hroom hscore
        simp only [slidingWindow, hroom, if_false, hscore] at h
        cases h
        simp only [ofScript, Bool.false_eq_true, if_false]
        omega
  · split at h
    · cases h
      cases hrefused
    · cases h

/-- A call that finds room is admitted. -/
theorem check_admitted (hon : settings.rateLimitEnabled = true) (hav : a.available = true)
    (hroom : ((x.counted settings a).zcard : ℤ) < limitFor settings a.category) :
    ∃ result, (check settings x.redis a.available a.category a.identity a.now).1 = .ok result ∧
      result.allowed = true := by
  simp only [RateState.counted] at hroom
  simp only [check, hon, hav, slidingWindow, hroom, Bool.not_true, Bool.false_eq_true, if_false, if_true]
  exact ⟨_, rfl, rfl⟩

end Calls

/-- **A call that comes when a refused one was told to retry is admitted**, if none has been admitted on
its key in between. Times are what `int(time.time() * 1000)` gives. -/
theorem retry_admitted (calls later : List RateCall) (a b : RateCall) {result : RateLimitResult}
    (hlimit : 1 ≤ limitFor settings a.category)
    (hsorted : (calls ++ a :: later).Pairwise fun r s => r.now ≤ s.now)
    (hclock : ∀ r ∈ calls ++ a :: later, 0 ≤ r.now)
    (hrefused : (check settings (RateState.serveAll settings ⟨.empty, []⟩ calls).redis a.available
      a.category a.identity a.now).1 = .ok result)
    (hdenied : result.allowed = false)
    (hnone : NoneAdmitted settings a.category a.identity
      (RateState.serveAll settings ⟨.empty, []⟩ (calls ++ [a])) later)
    (hb : b.on a.category a.identity = true) (havailable : b.available = true)
    (hnow : b.now = a.now + 1000 * result.retryAfterSeconds) :
    ∃ result', (check settings
      (RateState.serveAll settings ⟨.empty, []⟩ (calls ++ a :: later)).redis b.available b.category
      b.identity b.now).1 = .ok result' ∧ result'.allowed = true := by
  rw [List.pairwise_append, List.pairwise_cons] at hsorted
  obtain ⟨hbefore, ⟨-, -⟩, hcross⟩ := hsorted
  have htidy : Tidy settings a.category a.identity
      (RateState.serveAll settings ⟨.empty, []⟩ calls) a.now := by
    refine Tidy.serveAll (by omega) calls (t := 0) ⟨?_, fun e he => absurd he List.not_mem_nil⟩
      (fun b hb => hclock b (List.mem_append_left _ hb))
      (fun b hb => hclock b (List.mem_append_left _ hb)) hbefore
      (hclock a (List.mem_append_right _ List.mem_cons_self))
      fun b hb => hcross b hb a List.mem_cons_self
    simp only [Redis.empty, SortedSet.empty, SortedSet.zcard, List.length_nil]
    omega
  rw [RateState.serveAll, List.foldl_append, List.foldl_cons, List.foldl_nil] at hnone
  rw [RateState.serveAll, List.foldl_append, List.foldl_cons]
  rw [RateState.serveAll] at hrefused htidy
  generalize calls.foldl (RateState.serve settings) ⟨.empty, []⟩ = x at *
  obtain ⟨hon, hfull, ⟨e, hredis⟩, hretry⟩ := refused_cases hrefused hdenied
  -- the oldest entry of the full key
  have hpos : (x.counted settings a).entries ≠ [] := by
    intro hnil
    rw [SortedSet.zcard, hnil] at hfull
    simp only [List.length_nil] at hfull
    omega
  obtain ⟨score, hscore⟩ : ∃ score, (x.counted settings a).oldest = some score :=
    Option.isSome_iff_exists.mp (List.isSome_min?_of_ne_nil (mt List.map_eq_nil_iff.mp hpos))
  obtain ⟨⟨name, score'⟩, hentry, rfl⟩ := List.mem_map.mp (List.min?_mem hscore)
  have hleaves := hretry _ hscore
  have hentryPast := htidy.past _ (mem_of_counted hentry)
  have hinside : Inside settings a.category a.identity (x.counted settings a)
      (later.foldl (RateState.serve settings) (x.serve settings a)) := by
    refine Inside.serveAll later (fun e' he' => ?_) hnone
    rwa [hredis, Function.update_self] at he'
  generalize later.foldl (RateState.serve settings) (x.serve settings a) = y at hinside ⊢
  obtain ⟨hcategory, hidentity⟩ := on_iff.mp hb
  have hkey : key settings b.category b.identity = key settings a.category a.identity := by
    rw [hcategory, hidentity]
  -- it is not counted any more
  have hsub : (y.counted settings b).entries ⊆ (x.counted settings a).entries.erase (name, score') := by
    intro e' he'
    have hin := mem_of_counted he'
    rw [hkey] at hin
    refine (List.mem_erase_of_ne ?_).mpr (hinside e' hin)
    rintro rfl
    refine (counted_mem.mp he').2 ⟨hentryPast.1, ?_⟩
    simp only at hleaves ⊢
    omega
  have hcount : (y.counted settings b).zcard ≤ (x.counted settings a).zcard - 1 := by
    have hnodup := List.Nodup.of_map _ (y.counted settings b).nodup
    have := (hnodup.subperm hsub).length_le
    rwa [List.length_erase_of_mem hentry] at this
  have hroom : ((y.counted settings b).zcard : ℤ) < limitFor settings b.category := by
    have := zcard_counted_le settings x a
    have := htidy.few
    have : 0 < (x.counted settings a).zcard := List.length_pos_iff.mpr hpos
    rw [hcategory]
    omega
  exact check_admitted hon havailable hroom

/-- One call a minute. -/
def RateLimitSettings.one : RateLimitSettings := { rateLimitLlmPerMinute := 1 }

/-- A call half a minute after the one admitted is refused, and told to retry after 31 seconds. -/
theorem retry_admitted_trial : ∃ result : RateLimitResult, result.allowed = false ∧
    result.retryAfterSeconds = 31 ∧ ∃ result', (check .one
      (RateState.serveAll .one ⟨.empty, []⟩ ([.trial 5000] ++ .trial 34500 :: [.trial 40000])).redis true
      .llm "user:1" 65500).1 = .ok result' ∧ result'.allowed = true := by
  have hclock : ∀ r ∈ [RateCall.trial 5000] ++ .trial 34500 :: [.trial 40000], 0 ≤ r.now :=
    List.forall_mem_cons.mpr ⟨by decide, List.forall_mem_cons.mpr ⟨by decide,
      List.forall_mem_singleton.mpr (by decide)⟩⟩
  have hrefused : (check .one (RateState.serveAll .one ⟨.empty, []⟩ [.trial 5000]).redis true .llm
      "user:1" 34500).1 = .ok ⟨false, 1, 0, 31, 31⟩ := rfl
  have hafter : (RateState.serveAll .one ⟨.empty, []⟩ [.trial 5000, .trial 34500, .trial 40000]).admittedOn
      .llm "user:1" = [.trial 5000] := rfl
  have hbefore : (RateState.serveAll .one ⟨.empty, []⟩ [.trial 5000, .trial 34500]).admittedOn
      .llm "user:1" = [.trial 5000] := rfl
  have hnone : NoneAdmitted .one .llm "user:1"
      (RateState.serveAll .one ⟨.empty, []⟩ ([.trial 5000] ++ [.trial 34500])) [.trial 40000] :=
    ⟨hafter.trans hbefore.symm, trivial⟩
  exact ⟨⟨false, 1, 0, 31, 31⟩, rfl, rfl, retry_admitted .one [.trial 5000] [.trial 40000] (.trial 34500)
    (.trial 65500) (by decide) (by decide) hclock hrefused rfl hnone (by decide) rfl rfl⟩

end DevOps
