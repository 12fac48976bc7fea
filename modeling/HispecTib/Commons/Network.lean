import HispecTib.Base.LinkedList
import HispecTib.Base.Loop

/-!
# Network events (`network.c`)

* `NetMgmt`: the callbacks that are registered with the network stack. A callback is its address;
  the list links the callbacks through their own `node` fields, so registering does not allocate.
* `netMgmtInitEventCallback`, `netMgmtAddEventCallback`: the two calls of the stack.
* `cooNetworkInit`: the start of the network, which registers `net_l4_mgmt_cb`.
* `cooNetworkWaitReady`: the wait for the network, with and without a timeout. Other threads write
  `network_online`, so its reads one after the other are an argument.
-/

namespace Tib

/-- The events that the masks name. -/
inductive NetEvent where
  | ipv4AddrAdd
  | ipv4AddrDel
  | l4Connected
  | l4Disconnected
deriving DecidableEq

/-- `NET_L4_EVENT_MASK`; a mask is the list of its events. -/
def netL4EventMask : List NetEvent := [.l4Connected, .l4Disconnected]

/-- A handler, by name; the handlers of other callbacks have numbers. -/
inductive NetHandler where
  | netL4EvtHandler
  | other (n : Nat)
deriving DecidableEq

/-- A `struct net_mgmt_event_callback *`. -/
abbrev CallbackPtr := Nat

/-- `&net_l4_mgmt_cb`. -/
def netL4MgmtCb : CallbackPtr := 0

/-- A `coo_network_event_cb_t`; `none` is `NULL`. -/
abbrev NetworkEventCb := Option Nat

/-- The callbacks with their fields, the list of those that are registered, and `user_event_cb`. -/
structure NetMgmt where
  callbacks : IntrusiveList CallbackPtr
  handler : CallbackPtr → Option NetHandler
  eventMask : CallbackPtr → List NetEvent
  userEventCb : NetworkEventCb

/-- No field but the handler and the mask is set; the node stays in a list that it is in. -/
def netMgmtInitEventCallback (cb : CallbackPtr) (handler : NetHandler) (mask : List NetEvent)
    (net : NetMgmt) : NetMgmt :=
  { net with
    handler := Function.update net.handler cb (some handler)
    eventMask := Function.update net.eventMask cb mask }

/-- The node is prepended without a look at the list. -/
def netMgmtAddEventCallback (cb : CallbackPtr) (net : NetMgmt) : NetMgmt :=
  { net with callbacks := net.callbacks.prepend cb }

/-- `-ENETDOWN`. -/
def negEnetdown : Int := -115

/-- `coo_network_init`; `hasIface` for a default interface, `allIfUp` for the return code of
`conn_mgr_all_if_up`. -/
def cooNetworkInit (hasIface : Bool) (allIfUp : Int) (eventCb : NetworkEventCb) (net : NetMgmt) :
    Int × NetMgmt :=
  let net := { net with userEventCb := eventCb }
  if !hasIface then (negEnetdown, net)
  else
    let net := netMgmtInitEventCallback netL4MgmtCb .netL4EvtHandler
      [.ipv4AddrAdd, .ipv4AddrDel] net
    let net := netMgmtAddEventCallback netL4MgmtCb net
    if allIfUp ≠ 0 then (allIfUp, net)
    else
      let net := netMgmtInitEventCallback netL4MgmtCb .netL4EvtHandler netL4EventMask net
      let net := netMgmtAddEventCallback netL4MgmtCb net
      (0, net)

/-- `-ETIMEDOUT`. -/
def negEtimedout : Int := -116

/-- The local counter of `coo_network_wait_ready`, and the sleeps so far. -/
structure NetworkWait where
  elapsed : UInt32
  sleeps : Nat

namespace NetworkWait

/-- `check_interval`, in milliseconds. -/
def checkInterval : UInt32 := 100

def start : NetworkWait := ⟨0, 0⟩

/-- One round of the wait with a timeout. -/
def sleep (s : NetworkWait) : NetworkWait := ⟨s.elapsed + checkInterval, s.sleeps + 1⟩

/-- One round of the wait forever; the counter only says when to log. -/
def sleepForever (s : NetworkWait) : NetworkWait :=
  if s.elapsed + checkInterval ≥ 10000 then ⟨0, s.sleeps + 1⟩
  else ⟨s.elapsed + checkInterval, s.sleeps + 1⟩

end NetworkWait

/-- `coo_network_wait_ready`: the return code and the number of sleeps. `reads i` is the value of
`network_online` that the loop reads after `i` sleeps; the test behind the loop is one more read. -/
def cooNetworkWaitReady (reads : Nat → Bool) (timeoutMs : UInt32) (fuel : Nat) :
    Option (Int × Nat) :=
  if timeoutMs = 0 then
    (WhileLoop.run (fun s => !reads s.sleeps) NetworkWait.sleepForever fuel .start).map
      fun s => (0, s.sleeps)
  else
    (WhileLoop.run (fun s => !reads s.sleeps && s.elapsed < timeoutMs) NetworkWait.sleep fuel
      .start).map fun s => (if !reads (s.sleeps + 1) then negEtimedout else 0, s.sleeps)

end Tib
