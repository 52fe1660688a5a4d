import Suc.Proof.ReaderSource

/-!
# Signal descriptors

The lambda of a `SignalFd` is a batch reader. What it reads are the pending signals in the order that
the kernel gives them, which need not be the one in which they have arrived; a signal that arrives may
be merged with a pending one, and a pending one may be taken by somebody else. Each signal that has
arrived is handed over once, is pending or at hand, or was lost in one of these ways or to an exception
of the function.
-/

namespace Suc.Epl

open Transition

variable {H : Type}

namespace SignalFd

/-- The signals that arrive, those that functions are called for, and those that are merged, taken or
lost. -/
def records (s : Solo (List SignalfdSiginfo) (Reader.Pos SignalfdSiginfo SignalfdSiginfo H)) :
    SoloLabel (Option Errno) SignalAct H → List (LossyLabel SignalfdSiginfo)
  | .outside (.arrive r _ merges) =>
      if merged s.state r merges then [.send r, .drop r] else [.send r]
  | .outside (.taken place) => ((s.state.drop place).take 1).map .drop
  | .enter func => Reader.records onSignal s (.enter func)
  | .act failure => Reader.records onSignal s (.act failure)
  | .returns => Reader.records onSignal s .returns
  | .throws exc => Reader.records onSignal s (.throws exc)

theorem conserved_step {h : List (LossyLabel SignalfdSiginfo)}
    {s t : Solo (List SignalfdSiginfo) (Reader.Pos SignalfdSiginfo SignalfdSiginfo H)}
    {l : SoloLabel (Option Errno) SignalAct H} (hstep : (service H).solo.step s l = some t)
    (hs : Conserved h (Reader.held s)) : Conserved (h ++ records s l) (Reader.held t) := by
  -- by itself the lambda does what that of a reader does whose descriptor is a queue
  have hlambda (l : SoloLabel (Option Errno) (KernelAct SignalfdSiginfo) H)
      (hinside : l.outside? = none)
      (hsame : (Reader.service H onSignal).solo.step s l = some t) :
      Conserved (h ++ Reader.records onSignal s l) (Reader.held t) :=
    hs.takesFirst (Reader.takesFirst_of_step hsame hinside)
  cases l with
  | outside act =>
      cases hstep
      cases act with
      | arrive r place merges =>
          cases hmerged : merged s.state r merges with
          | true => simpa [records, service, Reader.held, hmerged] using hs.merge r
          | false =>
              have hsplit : Reader.held s =
                  s.pos.elim [] Reader.Pos.todo ++ s.state.take place ++ s.state.drop place := by
                rw [Reader.held, List.append_assoc, List.take_append_drop]
              rw [hsplit] at hs
              have hsent := hs.send _ r
              rw [List.append_assoc] at hsent
              simpa [records, service, Reader.held, hmerged] using hsent
      | taken place =>
          have hsplit : Reader.held s = s.pos.elim [] Reader.Pos.todo ++ s.state.take place ++
              (s.state.drop place).take 1 ++ s.state.drop (place + 1) := by
            rw [Reader.held, List.append_assoc, List.append_assoc, ← List.drop_drop,
              List.take_append_drop, List.take_append_drop]
          rw [hsplit] at hs
          have htaken := hs.drops _
          rw [List.append_assoc] at htaken
          simpa only [Reader.held, service, records, List.eraseIdx_eq_take_drop_succ] using htaken
  | enter func => exact hlambda (.enter func) rfl hstep
  | act failure => exact hlambda (.act failure) rfl hstep
  | returns => exact hlambda .returns rfl hstep
  | throws exc => exact hlambda (.throws exc) rfl hstep

end SignalFd

end Suc.Epl
