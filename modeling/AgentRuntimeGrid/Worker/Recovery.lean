import AgentRuntimeGrid.Worker.Loop

/-! `recover_stale_leases`, cut where another process can act. -/
namespace AgentRuntimeGrid

structure StaleLeaseRecoveryResult where
  detectedCount : ℕ
  requeuedCount : ℕ
  dlqCount : ℕ
  acknowledgedTerminalCount : ℕ
  acknowledgedMissingCount : ℕ
  deriving DecidableEq, Repr

/-- `_RecoveryAction.kind`. -/
inductive RecoveryKind where
  | ackMissing | ackTerminal | requeue | dlq
  deriving DecidableEq, Repr

namespace StaleLeaseRecoveryResult

def start (detected : ℕ) : StaleLeaseRecoveryResult := ⟨detected, 0, 0, 0, 0⟩

def count (r : StaleLeaseRecoveryResult) : RecoveryKind → StaleLeaseRecoveryResult
  | .requeue => { r with requeuedCount := r.requeuedCount + 1 }
  | .dlq => { r with dlqCount := r.dlqCount + 1 }
  | .ackTerminal => { r with acknowledgedTerminalCount := r.acknowledgedTerminalCount + 1 }
  | .ackMissing => { r with acknowledgedMissingCount := r.acknowledgedMissingCount + 1 }

end StaleLeaseRecoveryResult

inductive RecoveryState where
  | planning (leases : List StaleLease) (result : StaleLeaseRecoveryResult)
  | publishing (lease : StaleLease) (message : QueueJobMessage) (rest : List StaleLease)
      (result : StaleLeaseRecoveryResult)
  | deadLettering (lease : StaleLease) (rest : List StaleLease) (result : StaleLeaseRecoveryResult)
  | acknowledging (kind : RecoveryKind) (lease : StaleLease) (rest : List StaleLease)
      (result : StaleLeaseRecoveryResult)
  | returned (result : StaleLeaseRecoveryResult)
  | raised (errorClass : String)

namespace Recovery
variable (recoveryWorkerId : String) (g : Grid)

/-- `find_stale_leases`. The log only grows, so the entries read one after another are the ones
the pending list named. -/
def find (idle : EntryId → ℕ) (staleAfterMs count : ℕ) : RecoveryState :=
  let leases := g.queue.findStaleLeases idle staleAfterMs count
  .planning leases (.start leases.length)

/-- `_plan_recovery_action` of the first lease. -/
def plan (lease : StaleLease) (rest : List StaleLease) (result : StaleLeaseRecoveryResult) :
    Option (Grid × RecoveryState) :=
  if g.rowLocked lease.message.jobId then none
  else match g.db.loadJob lease.message.jobId with
    | none => some (g, .acknowledging .ackMissing lease rest result)
    | some job =>
      if job.status.terminal then some (g, .acknowledging .ackTerminal lease rest result)
      else if lease.message.attemptNumber ≤ job.maxRetries then
        let nextAttemptNumber := lease.message.attemptNumber + 1
        some (g.commit (g.db.recordStaleLeaseRecovered job recoveryWorkerId lease.consumerName
            lease.message.entryId lease.idleMs lease.deliveryCount lease.message.attemptNumber
            nextAttemptNumber)
          (.raised "IntegrityError")
          (.publishing lease (job.message nextAttemptNumber) rest result))
      else
        some (g.commit ((g.db.recordFailed job recoveryWorkerId lease.message.attemptNumber
            Database.staleLeaseExhaustedErrorClass true).map Prod.snd)
          (.raised "IntegrityError") (.deadLettering lease rest result))

/-- The next step of a call to `recover_stale_leases`. -/
def advance : RecoveryState → Option (Grid × RecoveryState)
  | .planning [] result => some (g, .returned result)
  | .planning (lease :: rest) result => plan recoveryWorkerId g lease rest result
  | .publishing lease message rest result => some ({ g with
      queue := g.queue.publishJob message lease.message.entryId },
      .acknowledging .requeue lease rest result)
  | .deadLettering lease rest result => some ({ g with
      queue := g.queue.addDeadLetter lease.message Database.staleLeaseExhaustedErrorClass
        lease.message.attemptNumber },
      .acknowledging .dlq lease rest result)
  | .acknowledging kind lease rest result =>
      some (g.acknowledge lease.message, .planning rest (result.count kind))
  | .returned _ => none
  | .raised _ => none

end Recovery
end AgentRuntimeGrid
