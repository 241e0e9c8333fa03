import Mathlib.Algebra.Group.Int.Defs
import Mathlib.Data.Finset.Card
import Mathlib.Order.Interval.Finset.Nat
import RagForge.Decimal
import RagForge.Interleave
import RagForge.PyText
import RagForge.Redis

namespace RagForge.RateLimit
open Transition

-- What the middleware reads of a request.
structure Request where
  path : Str
  x_api_key : Option Str
  authorization : Option Str
  client_host : Option Str
  deriving DecidableEq

def exemptPaths : List Str :=
  ["/api/v1/health".toList,"/api/v1/health/ready".toList,"/metrics".toList,"/docs".toList,"/openapi.json".toList]

-- The API key of a request; an empty header counts as none.
def Request.apiKey (request : Request) : Option Str := request.x_api_key.filter fun key => !key.isEmpty

def Request.bearer (request : Request) : Option Str :=
  request.authorization.filter fun auth_header => "Bearer ".toList.isPrefixOf auth_header

-- `_identify_client`, with the string hash of the process that runs it.
def identifyClient (hash : Str → Int) (request : Request) : Str :=
  match request.apiKey with
  | some apiKey => "key:".toList ++ apiKey.take 16
  | none => match request.bearer with
    | some auth_header => "token:".toList ++ Nat.toDigits 10 (hash auth_header % 2 ^ 32).toNat
    | none => "ip:".toList ++ request.client_host.getD "unknown".toList

-- The clock counts microseconds.
def minute : Nat := 60000000

def redisKey (client_key : Str) (window : Nat) : Str :=
  "ratelimit:".toList ++ client_key ++ ':' :: Nat.toDigits 10 window

-- What a request has got for its INCR, and when.
structure Receipt where
  owner : Nat
  client_key : Str
  window : Nat
  current : Nat
  counted_at : Nat
  deriving DecidableEq

def Receipt.key (r : Receipt) : Str := redisKey r.client_key r.window

-- Counted within the minute the request was received in.
def Receipt.Punctual (r : Receipt) : Prop := r.counted_at < (r.window + 1) * minute

instance (r : Receipt) : Decidable r.Punctual := inferInstanceAs (Decidable (_ < _))

-- `receipts` logs every INCR; no process reads it.
structure Shared where
  redis : Redis.Server Str
  receipts : List Receipt

-- One request in the server process that handles it.
inductive Phase where
  | received (server : Nat) (request : Request)
  | timed (server : Nat) (request : Request) (client_key : Str) (window : Nat)
  | counted (server : Nat) (request : Request) (receipt : Receipt)
  | checked (server : Nat) (request : Request) (receipt : Receipt)
  | forwarded (server : Nat) (request : Request) (receipt : Option Receipt)
  | limited
  | failed
  deriving DecidableEq

inductive Label where
  | identify
  | incr
  | expire
  | decide
  | tick (ticks : Nat)
  | fails

def decision (RATE_LIMIT_PER_MINUTE server : Nat) (request : Request) (receipt : Receipt) : Phase :=
  if receipt.current > RATE_LIMIT_PER_MINUTE then .limited else .forwarded server request (some receipt)

-- `dispatch`, command by command.
def act (hash : Nat → Str → Int) (RATE_LIMIT_PER_MINUTE : Nat) (i : Nat) (s : Shared) : Phase → Label → Option (Shared × Phase)
  | phase,.tick ticks => some ({s with redis := s.redis.elapse ticks},phase)
  | .received server request,.identify =>
    if exemptPaths.contains request.path then some (s,.forwarded server request none)
    else some (s,.timed server request (identifyClient (hash server) request) (s.redis.now / minute))
  | .timed server request client_key window,.incr =>
    let counted := s.redis.incr (redisKey client_key window)
    let receipt : Receipt := ⟨i,client_key,window,counted.2,s.redis.now⟩
    some (⟨counted.1,receipt :: s.receipts⟩,.counted server request receipt)
  | .counted server request receipt,.expire =>
    if receipt.current = 1 then some ({s with redis := s.redis.expire receipt.key minute},.checked server request receipt)
    else none
  | .counted server request receipt,.decide =>
    if receipt.current = 1 then none else some (s,decision RATE_LIMIT_PER_MINUTE server request receipt)
  | .checked server request receipt,.decide => some (s,decision RATE_LIMIT_PER_MINUTE server request receipt)
  | .received _ _,.fails => some (s,.failed)
  | .timed _ _ _ _,.fails => some (s,.failed)
  | .counted _ _ _,.fails => some (s,.failed)
  | .checked _ _ _,.fails => some (s,.failed)
  | _,_ => none

abbrev Config := Interleave.Config Shared Phase
abbrev Step (hash : Nat → Str → Int) (RATE_LIMIT_PER_MINUTE : Nat) : Config → Nat × Label → Config → Prop :=
  Interleave.Step (act hash RATE_LIMIT_PER_MINUTE)

-- The window can be read off the key.
theorem redisKey_window (same : redisKey a m = redisKey b n) : m = n := by
  have tail (client_key : Str) (window : Nat) :
      (redisKey client_key window).reverse.takeWhile (· ≠ ':') = (Nat.toDigits 10 window).reverse := by
    unfold redisKey
    rw [List.append_assoc,List.reverse_append,List.reverse_append,List.reverse_cons,List.append_assoc,List.append_assoc]
    rw [List.takeWhile_append_of_pos]
    · simp
    · intro c member
      refine decide_eq_true ?_
      rintro rfl
      exact Decimal.not_mem_toDigits rfl window (List.mem_reverse.mp member)
  have digits := congrArg List.reverse ((tail a m).symm.trans ((congrArg (fun key => key.reverse.takeWhile (· ≠ ':')) same).trans (tail b n)))
  rw [List.reverse_reverse,List.reverse_reverse] at digits
  exact Decimal.toDigits_injective digits

end RagForge.RateLimit
