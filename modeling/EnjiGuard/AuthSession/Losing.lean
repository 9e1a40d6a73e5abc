import EnjiGuard.AuthSession.Handover

/-!
# Losing a successor

A commit whose source is still stored keeps the successor it received, unless its diagnostics
cannot be prepared or it comes away from the lock with an error that is none of the operating
system's. The group of a failed write and its failed clean-up is such an error: nothing is durable
yet, and no caller gets hold of the successor.
-/

namespace EnjiGuard.AuthSession

open Foundation

variable {codec : CookieCodec} {env : Env} {w : World} {source : StoredAuth} {header : String}
  {response : EnjiHttpResponse} {wall : Nat}

/-- Under the lock a commit gets to no durable write and to no error that is caught, and then
releases the lock: the journal cannot be parsed, or it cannot be written while there is a temporary
file, which cannot be removed either. -/
inductive Env.Loses (env : Env) (w : World) : Prop
  | unread {e : PyError} (hlook : env.journalLook w = .error e) (hrelease : env.Works 2 "unlock") :
      Env.Loses env w
  | littered (hlook : env.journalLook w = .ok ()) {k : Nat}
      (hwrite : env.firstFailure 2 journalOperations = some k) (hlate : 6 ≤ k)
      (hunlink : env.Fails (k + 1) "unlink") (hrelease : env.Works (k + 2) "unlock") :
      Env.Loses env w

/-- A commit of a stored source drops its successor when it has the lock and loses it there. -/
lemma Env.Sees.drops_iff (hsees : env.Sees w wall source.revision) :
    env.Drops w wall source.revision ↔
      env.Works 0 "lock_open" ∧ env.Works 1 "lock" ∧ env.Loses w := by
  refine and_congr Iff.rfl (and_congr Iff.rfl ?_)
  constructor
  · rintro ⟨n, hforgets, hrelease⟩
    cases hforgets with
    | unseen hunseen => exact absurd hsees hunseen
    | unread _ hlook => exact .unread hlook hrelease
    | littered _ hlook hwrite hlate hunlink => exact .littered hlook hwrite hlate hunlink hrelease
  · intro hloses
    cases hloses with
    | unread hlook hrelease => exact ⟨2, .unread hsees hlook, hrelease⟩
    | littered hlook hwrite hlate hunlink hrelease =>
      exact ⟨_, .littered hsees hlook hwrite hlate hunlink, hrelease⟩

/-- A calm environment in which the storage operations at some positions fail. -/
def Env.failingAll (env : Env) (operations : List Nat) : Env :=
  { env with
    fault := fun n _ => if n ∈ operations then .error "No space left on device" else .none }

/-- The write of the journal fails, and so do the operations after it. -/
def littering (operations : List Nat) : Env :=
  (Env.calm (worker 1) launch "r1").failingAll operations

lemma received_littering (operations : List Nat) : ∃ r₀, Received plainCodec
    (littering operations) firstRequested firstAuth successResponse
      "access_token=c; refresh_token=d" r₀ := by
  refine exists_received (fun n operation => ?_) rfl rfl
  simp only [littering, Env.failingAll]
  split_ifs <;> simp

lemma sees_littering (operations : List Nat) (n : Nat) :
    (littering operations).Sees firstRequested n firstAuth.revision :=
  ⟨firstAuth, authOf_firstAuth, rfl⟩

lemma journalLook_littering (operations : List Nat) :
    (littering operations).journalLook firstRequested = .ok () := by
  have hread : (littering operations).readFault .journal 0 = none := rfl
  rw [Env.journalLook, hread]
  simp only [journalOf_firstRequested]
  rfl

end EnjiGuard.AuthSession
