import CommandRing.Dispatcher.Act

/-!
# What goes in and what comes out

Every successful submit gives out a handle, and pumps drain responses. `Acts` keeps the account of both over any
acts, each of them on any memory. Nobody calls the driver directly here, so what is drained is drained by a pump.

`Issued` keeps the account of the handles alone, and of everything that may become of a dispatcher. Ids in flight
are the driver's business, so whoever calls it directly can bring an id back into use at any time.

`Ringing` is for those who count how often the line is rung. Nobody but the dispatcher rings it, and it may behave
as it likes.
-/

namespace CommandRing

/-- The handle that an act gave out, if it did. -/
def Receipt.given : Receipt → List Handle
  | .submitted h => [h]
  | _ => []

namespace Dispatcher

/-- The responses that an act takes from the ring. -/
def drainedBy (d : Dispatcher) (memory : Region) : Act → List Response
  | .pump =>
    match d.driver.pollTake memory none with
    | (.ok items, _) => items.filterMap Except.toOption
    | (.error _, _) => []
  | _ => []

/-- What acts make of a dispatcher, with the handles they gave out and the responses they drained. -/
inductive Acts (d : Dispatcher) : List Handle → List Response → Dispatcher → Prop where
  | refl : Acts d [] [] d
  | acted {given : List Handle} {drained : List Response} {d' : Dispatcher} (memory : Region) (a : Act) :
      Acts d given drained d' →
      Acts d (given ++ (d'.act memory a).1.given) (drained ++ d'.drainedBy memory a)
        (d'.act memory a).2.1
  /-- The line signals, or is waited for. -/
  | signalled {given : List Handle} {drained : List Response} {d' : Dispatcher} (bell : Doorbell) :
      Acts d given drained d' → Acts d given drained { d' with bell := bell }

/-- What acts make of a dispatcher whose line is rung by nobody else, with the handles they gave out. -/
inductive Ringing (d : Dispatcher) : List Handle → Dispatcher → Prop where
  | refl : Ringing d [] d
  | acted {given : List Handle} {d' : Dispatcher} (memory : Region) (a : Act) :
      Ringing d given d' → Ringing d (given ++ (d'.act memory a).1.given) (d'.act memory a).2.1
  /-- The line signals or is waited for, or from now on it fails where it did not, or the other way round. -/
  | signalled {given : List Handle} {d' : Dispatcher} (bell : Doorbell) :
      bell.kicks = d'.bell.kicks → Ringing d given d' → Ringing d given { d' with bell := bell }

/-- What may become of a new dispatcher, with the handles that its submits gave out, in order. -/
inductive Issued : List Handle → Dispatcher → Prop where
  | new {layout : Layout} {memory memory' : Region} {driver : Driver} (bell : Doorbell) :
      Driver.attach layout memory = (.ok driver, memory') → Issued [] (new driver bell)
  | acted {given : List Handle} {d : Dispatcher} (memory : Region) (a : Act) :
      Issued given d → Issued (given ++ (d.act memory a).1.given) (d.act memory a).2.1
  /-- The driver is called, by somebody who may hold a drain of it. -/
  | called {given : List Handle} {d : Dispatcher} (drain : Drain) (memory : Region) (c : Call) :
      Issued given d →
      Issued given { d with driver := (Session.call ⟨d.driver, drain⟩ memory c).2.1.driver }
  /-- The line signals, or is waited for. -/
  | signalled {given : List Handle} {d : Dispatcher} (bell : Doorbell) :
      Issued given d → Issued given { d with bell := bell }

end Dispatcher

end CommandRing
