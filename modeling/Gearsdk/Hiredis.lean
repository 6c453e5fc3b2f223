import Gearsdk.Qstring

/-! The Redis counters of a room server. Every command succeeds and is applied at
once. Keys hold integers; a key with a lifetime may expire at any later moment,
and the notification of its expiry is delivered later still. -/
namespace Gearsdk

structure RedisEntry where
  value : Int
  /-- Remaining lifetime in seconds, for keys that have one. -/
  expiry : Option Nat

structure Redis where
  store : Qstring → Option RedisEntry := fun _ => none
  /-- Expired-key notifications in flight. -/
  published : List Qstring := []

namespace Redis

/-- An absent key counts as zero. -/
def value (redis : Redis) (key : Qstring) : Int :=
  ((redis.store key).map (·.value)).getD 0

def put (redis : Redis) (key : Qstring) (entry : Option RedisEntry) : Redis :=
  { redis with store := fun other => if other = key then entry else redis.store other }

/-- INCRBY keeps the lifetime of the key. -/
def incrBy (redis : Redis) (key : Qstring) (delta : Int) : Redis × Int :=
  let value := redis.value key + delta
  (redis.put key (some { value, expiry := (redis.store key).bind (·.expiry) }), value)

def decrBy (redis : Redis) (key : Qstring) (delta : Int) : Redis × Int :=
  redis.incrBy key (-delta)

/-- SET drops the lifetime of the key. -/
def setValue (redis : Redis) (key : Qstring) (value : Int) : Redis :=
  redis.put key (some { value, expiry := none })

def expireKey (redis : Redis) (key : Qstring) (expiryInSec : Nat) : Redis :=
  match redis.store key with
  | none => redis
  | some entry => redis.put key (some { entry with expiry := some expiryInSec })

def deleteKey (redis : Redis) (key : Qstring) : Redis := redis.put key none

def canExpire (redis : Redis) (key : Qstring) : Bool :=
  ((redis.store key).bind (·.expiry)).isSome

/-- Redis drops a key whose lifetime is over and publishes the event. -/
def expire (redis : Redis) (key : Qstring) : Redis :=
  { redis.put key none with published := redis.published ++ [key] }

def takeNotification (redis : Redis) (key : Qstring) : Redis :=
  { redis with published := redis.published.erase key }

section
variable (redis : Redis) (key other : Qstring)

@[simp] theorem value_put (entry : Option RedisEntry) : (redis.put key entry).value other =
    if other = key then (entry.map (·.value)).getD 0 else redis.value other := by
  simp only [put, value]
  split <;> simp_all

@[simp] theorem value_incrBy (delta : Int) : (redis.incrBy key delta).1.value other =
    if other = key then redis.value key + delta else redis.value other := by
  simp [incrBy]

@[simp] theorem incrBy_reply (delta : Int) : (redis.incrBy key delta).2 = redis.value key + delta :=
  rfl

@[simp] theorem value_setValue (n : Int) : (redis.setValue key n).value other =
    if other = key then n else redis.value other := by
  simp [setValue]

@[simp] theorem value_expireKey (seconds : Nat) :
    (redis.expireKey key seconds).value other = redis.value other := by
  simp only [expireKey]
  cases held : redis.store key with
  | none => rfl
  | some entry =>
    by_cases same : other = key
    · simp [value, put, same, held]
    · simp [value, put, same]

@[simp] theorem value_deleteKey : (redis.deleteKey key).value other =
    if other = key then 0 else redis.value other := by
  simp [deleteKey]

@[simp] theorem value_expire : (redis.expire key).value other =
    if other = key then 0 else redis.value other := by
  change (redis.put key none).value other = _
  simp

@[simp] theorem value_takeNotification :
    (redis.takeNotification key).value other = redis.value other := rfl

@[simp] theorem published_put (entry : Option RedisEntry) :
    (redis.put key entry).published = redis.published := rfl

@[simp] theorem published_incrBy (delta : Int) :
    (redis.incrBy key delta).1.published = redis.published := rfl

@[simp] theorem published_setValue (n : Int) : (redis.setValue key n).published = redis.published :=
  rfl

@[simp] theorem published_expireKey (seconds : Nat) :
    (redis.expireKey key seconds).published = redis.published := by
  simp only [expireKey]
  cases redis.store key <;> rfl

@[simp] theorem published_deleteKey : (redis.deleteKey key).published = redis.published := rfl

@[simp] theorem store_put (entry : Option RedisEntry) : (redis.put key entry).store other =
    if other = key then entry else redis.store other := rfl

/-! ### Other keys -/

variable {redis key other}

theorem store_incrBy_ne (delta : Int) (different : other ≠ key) :
    (redis.incrBy key delta).1.store other = redis.store other :=
  if_neg different

theorem store_setValue_ne (value : Int) (different : other ≠ key) :
    (redis.setValue key value).store other = redis.store other :=
  if_neg different

theorem store_deleteKey_ne (different : other ≠ key) :
    (redis.deleteKey key).store other = redis.store other :=
  if_neg different

theorem store_expireKey_ne (seconds : Nat) (different : other ≠ key) :
    (redis.expireKey key seconds).store other = redis.store other := by
  simp only [expireKey]
  cases redis.store key with
  | none => rfl
  | some entry => exact if_neg different

/-! ### Lifetimes -/

@[simp] theorem canExpire_incrBy (redis : Redis) (key other : Qstring) (delta : Int) :
    (redis.incrBy key delta).1.canExpire other = redis.canExpire other := by
  simp only [canExpire, incrBy]
  rw [store_put]
  split
  · rename_i same
    rw [same]
    rfl
  · rfl

theorem canExpire_of_put (entry : Option RedisEntry) (eternal : entry.bind (·.expiry) = none)
    (expirable : (redis.put key entry).canExpire other = true) : redis.canExpire other = true := by
  simp only [canExpire] at expirable ⊢
  rw [store_put] at expirable
  split at expirable
  · rw [eternal] at expirable
    cases expirable
  · exact expirable

theorem canExpire_of_expireKey {seconds : Nat}
    (expirable : (redis.expireKey key seconds).canExpire other = true) :
    other = key ∨ redis.canExpire other = true := by
  by_cases same : other = key
  · exact .inl same
  · simp only [canExpire] at expirable ⊢
    rw [store_expireKey_ne seconds same] at expirable
    exact .inr expirable

end
end Redis
end Gearsdk
