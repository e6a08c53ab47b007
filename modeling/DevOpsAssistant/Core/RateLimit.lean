import Mathlib.Logic.Function.Basic
import Mathlib.Data.Int.Notation
import Mathlib.Data.List.Nodup
import Mathlib.Order.MinMax
import Mathlib.Tactic.Common

/-!
# The rate limiter

* `SortedSet`: the sorted sets of Redis, as far as the limiter uses them.
* `slidingWindow`: `SLIDING_WINDOW_LUA`, which Redis runs atomically.
* `RateLimiter.check`, `RateLimiter.enforce`: one call of the limiter.

Times are in milliseconds.
-/

namespace DevOps

/-! ## Redis -/

/-- A sorted set: each member is there once, with its score. -/
structure SortedSet where
  entries : List (String × ℤ)
  nodup : (entries.map Prod.fst).Nodup

namespace SortedSet

def empty : SortedSet := ⟨[], List.nodup_nil⟩

/-- The entries that satisfy `p`. -/
def keep (z : SortedSet) (p : String × ℤ → Bool) : SortedSet :=
  ⟨z.entries.filter p, List.Sublist.nodup (List.filter_sublist.map _) z.nodup⟩

/-- `ZREMRANGEBYSCORE`. -/
def zremrangebyscore (z : SortedSet) (min max : ℤ) : SortedSet :=
  z.keep fun e => ¬ (min ≤ e.2 ∧ e.2 ≤ max)

/-- `ZCARD`. -/
def zcard (z : SortedSet) : ℕ := z.entries.length

/-- `ZADD`: a member that is there gets the new score. -/
def zadd (z : SortedSet) (score : ℤ) (member : String) : SortedSet where
  entries := (member, score) :: (z.keep fun e => e.1 ≠ member).entries
  nodup := by
    rw [List.map_cons, List.nodup_cons]
    refine ⟨fun hm => ?_, (z.keep fun e => e.1 ≠ member).nodup⟩
    obtain ⟨e, he, rfl⟩ := List.mem_map.mp hm
    simp [keep] at he

/-- The score of the first entry: `ZRANGE key 0 0 WITHSCORES`. -/
def oldest (z : SortedSet) : Option ℤ := (z.entries.map Prod.snd).min?

/-- The member is in the set. -/
def has (z : SortedSet) (member : String) : Bool := z.entries.any fun e => e.1 = member

end SortedSet

/-- A key of Redis that holds a sorted set, and the time at which it expires. -/
structure RedisKey where
  set : SortedSet
  expiresAt : Option ℤ

/-- What a command at the time `now` finds under the key. -/
def RedisKey.current (k : RedisKey) (now : ℤ) : SortedSet :=
  if k.expiresAt.any (· ≤ now) then .empty else k.set

/-- The sorted sets in Redis, by key. -/
abbrev Redis := String → RedisKey

def Redis.empty : Redis := fun _ => ⟨.empty, none⟩

/-- The reply of the script. -/
structure ScriptResult where
  allowed : Bool
  remaining : ℤ
  resetMs : ℤ
  limit : ℤ

/-- `SLIDING_WINDOW_LUA`. -/
def slidingWindow (k : RedisKey) (now window limit : ℤ) (member : String) : ScriptResult × RedisKey :=
  let set := (k.current now).zremrangebyscore 0 (now - window)
  let count : ℤ := set.zcard
  let expiresAt := if k.expiresAt.any (· ≤ now) then none else k.expiresAt
  if count < limit then
    -- `math.ceil(window / 1000) + 1` seconds
    (⟨true, limit - count - 1, window, limit⟩,
      ⟨set.zadd now member, some (now + (-(-window / 1000) + 1) * 1000)⟩)
  else
    let retryAfterMs := match set.oldest with
      | none => window
      | some score => max 1 (score + window - now)
    (⟨false, 0, retryAfterMs, limit⟩, ⟨set, expiresAt⟩)

/-! ## The limiter -/

/-- `RateLimitCategory`. -/
inductive RateLimitCategory where
  | auth
  | api
  | llm
  | stream
  | upload
deriving DecidableEq

def RateLimitCategory.value : RateLimitCategory → String
  | .auth => "auth"
  | .api => "api"
  | .llm => "llm"
  | .stream => "stream"
  | .upload => "upload"

/-- The settings the limiter reads. -/
structure RateLimitSettings where
  rateLimitEnabled : Bool := true
  rateLimitAuthPerMinute : ℤ := 10
  rateLimitApiPerMinute : ℤ := 120
  rateLimitLlmPerMinute : ℤ := 20
  rateLimitStreamPerMinute : ℤ := 10
  rateLimitUploadPerMinute : ℤ := 10
  rateLimitRedisPrefix : String := "devops-assistant:rate-limit"
  rateLimitFailOpen : Bool := true

structure RateLimitResult where
  allowed : Bool
  limit : ℤ
  remaining : ℤ
  retryAfterSeconds : ℤ
  resetSeconds : ℤ

/-- What the limiter raises. -/
inductive RateLimitExc where
  | unavailable (category : RateLimitCategory)
  | exceeded (category : RateLimitCategory) (result : RateLimitResult)

def RateLimitExc.message : RateLimitExc → String
  | .unavailable _ => "Rate limiting temporarily unavailable."
  | .exceeded .. => "Too many requests. Try again later."

def RateLimitExc.code : RateLimitExc → String
  | .unavailable _ => "RATE_LIMIT_UNAVAILABLE"
  | .exceeded .. => "RATE_LIMIT_EXCEEDED"

def RateLimitExc.statusCode : RateLimitExc → ℕ
  | .unavailable _ => 503
  | .exceeded .. => 429

namespace RateLimiter

variable (settings : RateLimitSettings)

def limitFor : RateLimitCategory → ℤ
  | .auth => settings.rateLimitAuthPerMinute
  | .api => settings.rateLimitApiPerMinute
  | .llm => settings.rateLimitLlmPerMinute
  | .stream => settings.rateLimitStreamPerMinute
  | .upload => settings.rateLimitUploadPerMinute

/-- `_key`. -/
def key (category : RateLimitCategory) (identity : String) : String :=
  settings.rateLimitRedisPrefix ++ ":" ++ category.value ++ ":" ++ identity

/-- The name under which a call is counted. -/
def member (now : ℤ) (identity : String) : String := toString now ++ "-" ++ identity

def windowMs : ℤ := 60000

/-- The result of a call that is not counted. -/
def uncounted (limit : ℤ) : RateLimitResult := ⟨true, limit, limit, 0, 60⟩

/-- The result of a call the script has replied to. -/
def ofScript (r : ScriptResult) : RateLimitResult :=
  let retryAfter := max 1 ((r.resetMs + 999) / 1000)
  ⟨r.allowed, r.limit, max 0 r.remaining, if r.allowed then 0 else retryAfter, retryAfter⟩

/-- One call at the time `now`; `available` if Redis runs the script. -/
def check (redis : Redis) (available : Bool) (category : RateLimitCategory) (identity : String)
    (now : ℤ) : Except RateLimitExc RateLimitResult × Redis :=
  let limit := limitFor settings category
  if !settings.rateLimitEnabled then (.ok (uncounted limit), redis)
  else if available then
    let k := key settings category identity
    let (reply, k') := slidingWindow (redis k) now windowMs limit (member now identity)
    (.ok (ofScript reply), Function.update redis k k')
  else if settings.rateLimitFailOpen then (.ok (uncounted limit), redis)
  else (.error (.unavailable category), redis)

/-- `enforce`: a call that is not allowed raises. -/
def enforce (redis : Redis) (available : Bool) (category : RateLimitCategory) (identity : String)
    (now : ℤ) : Except RateLimitExc RateLimitResult × Redis :=
  match check settings redis available category identity now with
  | (.ok result, redis') =>
    if result.allowed then (.ok result, redis') else (.error (.exceeded category result), redis')
  | (.error e, redis') => (.error e, redis')

end RateLimiter

end DevOps
