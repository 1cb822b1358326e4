import Pingward.ModelRoutes

/-! The calls of the parts that every request shares: the layers and extractors in front of a handler,
and the wrappers a handler makes its calls through. -/

open StoreProgram

namespace Pingward

theorem attemptCall_only {A : Type} {okCall : StoreCall → Prop} {okEvent : Spawned → Prop} {c : StoreCall}
    (hc : okCall c) : (attemptCall c : StoreProg A _).Only okCall okEvent := Prog.Only.attempt hc

theorem store_only {okCall : StoreCall → Prop} {okEvent : Spawned → Prop} {c : StoreCall} (hc : okCall c) :
    (store c).Only okCall okEvent := Prog.Only.perform hc

theorem apiStore_only {okCall : StoreCall → Prop} {okEvent : Spawned → Prop} {c : StoreCall} (hc : okCall c) :
    (apiStore c).Only okCall okEvent := Prog.Only.perform hc

theorem query_only {okCall : StoreCall → Prop} {okEvent : Spawned → Prop} {c : StoreCall} (hc : okCall c) :
    (query c).Only okCall okEvent := Prog.Only.perform hc

theorem okOr_only {α : Type} {okCall : StoreCall → Prop} {okEvent : Spawned → Prop} (error : ApiError) (row : Option α) :
    (okOr error row).Only okCall okEvent := by
  cases row <;> trivial

theorem orBadRequest_only {α : Type} {okCall : StoreCall → Prop} {okEvent : Spawned → Prop} (result : Except String α) :
    (orBadRequest result).Only okCall okEvent := by
  cases result <;> trivial

theorem auditAccess_only {okCall : StoreCall → Prop} {okEvent : Spawned → Prop} {ctx : WebContext} {user : User}
    {method targetType : String} {targetId : Int} {owner : Option Int}
    (haudit : ∀ entry, okCall (.recordAudit entry ctx.now)) :
    (auditAccess ctx user method targetType targetId owner).Only okCall okEvent := by
  unfold auditAccess
  split
  · exact (store_only (haudit _)).bind fun _ => trivial
  · trivial

/-! ### What a handler looks up first -/

section Lookup

variable {okCall : StoreCall → Prop} {okEvent : Spawned → Prop}

theorem ownedProject_only {id : Int} (userId : Int) (hproject : okCall (.findProject id)) :
    (ownedProject id userId).Only okCall okEvent := by
  refine (store_only hproject).bind fun found => ?_
  split
  · trivial
  · split <;> trivial

theorem adminProject_only {ctx : WebContext} {id : Int} (user : User) (method : String)
    (hproject : okCall (.findProject id)) (haudit : ∀ entry, okCall (.recordAudit entry ctx.now)) :
    (adminProject ctx user method id).Only okCall okEvent := by
  refine (store_only hproject).bind fun found => ?_
  split
  · trivial
  · exact (auditAccess_only haudit).bind fun _ => trivial

theorem resolveOwned_only {α : Type} {ctx : ApiContext} (user : User) (method targetType : String) (targetId : Int)
    (owner : Option Int) (row : α) (haudit : ∀ entry, okCall (.recordAudit entry ctx.now)) :
    (resolveOwned ctx user method targetType targetId owner row).Only okCall okEvent := by
  unfold resolveOwned
  split
  · trivial
  · split
    · exact Prog.Only.bind ((apiStore_only (haudit _)).bind fun _ => trivial) fun _ => trivial
    · trivial

theorem resolveProject_only {ctx : ApiContext} {id : Int} (user : User) (method : String)
    (hproject : okCall (.findProject id)) (haudit : ∀ entry, okCall (.recordAudit entry ctx.now)) :
    (resolveProject ctx user method id).Only okCall okEvent :=
  (apiStore_only hproject).bind fun _ => (okOr_only _ _).bind fun _ => resolveOwned_only user _ _ _ _ _ haudit

theorem apiUser_only {ctx : ApiContext} (X : Crates) (hkey : ∀ hash, okCall (.validateApiKey hash ctx.now))
    (huser : ∀ id, okCall (.findUserById id)) : (apiUser X ctx).Only okCall okEvent :=
  (okOr_only _ _).bind fun _ => (apiStore_only (hkey _)).bind fun _ => (okOr_only _ _).bind fun _ =>
    (apiStore_only (huser _)).bind fun _ => okOr_only _ _

end Lookup

/-! ### Authentication -/

/-- The calls the layers and the extractors make. -/
inductive AuthCall (ctx : WebContext) : StoreCall → Prop where
  | session (id : String) : AuthCall ctx (.findSessionUser id ctx.now)
  | username (name : String) : AuthCall ctx (.findUserByUsername name)
  | provision (name : String) : AuthCall ctx (.createUser name none false ctx.now)
  | user (id : Int) : AuthCall ctx (.findUserById id)
  | mint (userId : Int) : AuthCall ctx (.createSession
      ⟨ctx.freshSession, userId, ctx.now + sessionIdleTtl, ctx.userAgent, ctx.ip, true⟩ ctx.now)

theorem forwardAuthUser_only (ctx : WebContext) : (forwardAuthUser ctx).Only (AuthCall ctx) fun _ => False := by
  unfold forwardAuthUser
  split
  · trivial
  · refine (attemptCall_only (.username _)).bind fun answer => ?_
    split
    · trivial
    · trivial
    · refine (attemptCall_only (.provision _)).bind fun answer => ?_
      split
      · trivial
      · exact (attemptCall_only (.user _)).bind fun _ => trivial

theorem sessionLive_only (ctx : WebContext) : (sessionLive ctx).Only (AuthCall ctx) fun _ => False := by
  unfold sessionLive
  split
  · trivial
  · exact (attemptCall_only (.session _)).bind fun _ => trivial

theorem requestSession_only (ctx : WebContext) : (requestSession ctx).Only (AuthCall ctx) fun _ => False := by
  unfold requestSession
  split
  · trivial
  · refine (sessionLive_only ctx).bind fun live => ?_
    split
    · trivial
    · refine (forwardAuthUser_only ctx).bind fun found => ?_
      split
      · trivial
      · refine (attemptCall_only (.mint _)).bind fun answer => ?_
        split <;> trivial

theorem resolveUser_only (ctx : WebContext) (sid : String) :
    (resolveUser ctx sid).Only (AuthCall ctx) fun _ => False := by
  refine (attemptCall_only (.session sid)).bind fun found => ?_
  split
  · split
    · exact forwardAuthUser_only ctx
    · trivial
  · exact forwardAuthUser_only ctx

end Pingward
