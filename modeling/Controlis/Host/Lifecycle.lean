import Controlis.Foundation.Runs
import Controlis.Session.ControlLoop

/-!
# The host and its panel

A host runs behind the panel that asked for it: `start_host` is called when the
panel is mounted, `stop_host` when it is left. Both are asynchronous, and the
backend takes them up in any order. `start_host` stops the host in the slot, waits
for the capture backend, and puts the new host in the slot. Panels and hosts are
numbered as they come.
-/

namespace Controlis.Host.Lifecycle
open Session Runs

inductive Start
  | invoked
  | building
  | returned (result : Except String ℕ)
deriving DecidableEq, Repr

def Start.failed : Start → Bool
  | .returned (.error _) => true
  | _ => false

/-- `left`: the panel has called `stop_host`, which is still under way. -/
inductive Page
  | shown
  | left
  | stopped
  | reloaded
deriving DecidableEq, Repr

structure Panel where
  start : Start
  page : Page
deriving DecidableEq, Repr

structure RunningHost where
  panel : ℕ
  commands : List HostCommand
  shutdown : Bool
  pump : Bool
  finished : Bool
deriving DecidableEq, Repr

inductive Call
  | start (panel : ℕ)
  | stop (panel : ℕ)
deriving DecidableEq, Repr

/-- `calls` are those under way, in the order in which the panels made them. -/
structure App where
  hosts : List RunningHost
  slot : Option ℕ
  panels : List Panel
  calls : List Call
deriving DecidableEq, Repr

inductive Build
  | panicked (message : String)
  | refused (message : String)
  | running
deriving DecidableEq, Repr

inductive Event
  | openHost
  | leave (panel : ℕ)
  | reload (panel : ℕ)
  | startHost (panel : ℕ)
  | started (panel : ℕ) (build : Build)
  | stopHost (panel : ℕ)
  | hostCommand (action : String)
  | pumpEnds (host : ℕ)
  | hostEnds (host : ℕ)
deriving DecidableEq, Repr

namespace App

def start : App := ⟨[], none, [], []⟩

def call (s : App) (p : ℕ) : Option Start := s.panels[p]?.map Panel.start

def page (s : App) (p : ℕ) : Option Page := s.panels[p]?.map Panel.page

def dropHost (s : App) : App :=
  match s.slot with
  | none => s
  | some k =>
    { s with slot := none, hosts := s.hosts.modify k fun host => { host with shutdown := true } }

def setStart (s : App) (p : ℕ) (start : Start) : App :=
  { s with panels := s.panels.modify p fun panel => { panel with start := start } }

def setPage (s : App) (p : ℕ) (page : Page) : App :=
  { s with panels := s.panels.modify p fun panel => { panel with page := page } }

def openHost (s : App) : App :=
  if s.panels.any (·.page = .shown) then s
  else
    { s with
      panels := s.panels ++ [⟨.invoked, .shown⟩]
      calls := s.calls ++ [.start s.panels.length] }

def leave (s : App) (p : ℕ) : App :=
  if s.page p = some .shown then
    { s.setPage p .left with calls := s.calls ++ [.stop p] }
  else s

def reload (s : App) (p : ℕ) : App :=
  if s.page p = some .shown then s.setPage p .reloaded else s

def startHost (s : App) (p : ℕ) : App :=
  if s.call p = some .invoked then s.dropHost.setStart p .building else s

def returned (s : App) (p : ℕ) (result : Except String ℕ) : App :=
  { s.setStart p (.returned result) with calls := s.calls.erase (.start p) }

def insertHost (s : App) (p : ℕ) : App :=
  { s.dropHost with
    hosts := s.dropHost.hosts ++ [⟨p, [], false, true, false⟩]
    slot := some s.hosts.length }

def started (s : App) (p : ℕ) (build : Build) : App :=
  if s.call p = some .building then
    match build with
    | .panicked message => s.returned p (.error message)
    | .refused message => s.returned p (.error s!"falha ao iniciar o host: {message}")
    | .running => (s.insertHost p).returned p (.ok s.hosts.length)
  else s

def stopHost (s : App) (p : ℕ) : App :=
  if s.page p = some .left then
    { s.dropHost.setPage p .stopped with calls := s.calls.erase (.stop p) }
  else s

end App

def command : String → Option HostCommand
  | "approve" => some .approve
  | "reject" => some .reject
  | "stop" => some .stop
  | _ => none

namespace App

def hostCommand (s : App) (action : String) : Except String Unit × App :=
  match s.slot with
  | none => (.error "host não está ativo", s)
  | some k =>
    match command action with
    | none => (.error s!"comando desconhecido: {action}", s)
    | some c =>
      (.ok (), { s with
        hosts := s.hosts.modify k fun host =>
          if host.finished then host else { host with commands := host.commands ++ [c] } })

def pumpEnds (s : App) (k : ℕ) : App :=
  { s with
    hosts := s.hosts.modify k fun host =>
      if host.shutdown || host.finished ||
          s.page host.panel = some .reloaded then
        { host with pump := false }
      else host }

def hostEnds (s : App) (k : ℕ) : App :=
  { s with hosts := s.hosts.modify k fun host => { host with finished := true } }

def step (s : App) : Event → App
  | .openHost => s.openHost
  | .leave p => s.leave p
  | .reload p => s.reload p
  | .startHost p => s.startHost p
  | .started p build => s.started p build
  | .stopHost p => s.stopHost p
  | .hostCommand action => (s.hostCommand action).2
  | .pumpEnds k => s.pumpEnds k
  | .hostEnds k => s.hostEnds k

end App

def App.Vacant (s : App) : Prop :=
  ∀ k host, s.slot = some k → s.hosts[k]? = some host → s.page host.panel ≠ some .shown

/-- The panel is on the screen, or its `stop_host` is under way. A reloaded one never calls it. -/
def App.Watched (s : App) (p : ℕ) : Prop :=
  s.page p = some .shown ∨ s.page p = some .left

/-- The panel on the screen keeps the host it has started, the host in the slot has a panel that can
still stop it, and all other hosts were told to shut down. -/
structure Attached (s : App) : Prop where
  serves : ∀ p k, s.page p = some .shown → s.call p = some (.returned (.ok k)) →
    s.slot = some k ∧ ∃ host, s.hosts[k]? = some host ∧ host.panel = p ∧ host.shutdown = false ∧
      (host.pump = true ∨ host.finished = true)
  watched : ∀ k host, s.slot = some k → s.hosts[k]? = some host → s.Watched host.panel
  others : ∀ k host, s.hosts[k]? = some host → s.slot ≠ some k → host.shutdown = true

/-- No call takes away the host of the panel on the screen or starts one for a panel that is gone,
and no reload takes away the panel of the host in the slot. -/
def Careful (s : App) : Event → Prop
  | .reload p => s.page p = some .shown → ∀ k, s.slot = some k →
      s.call p ≠ some (.returned (.ok k))
  | .startHost p => s.call p = some .invoked → s.Vacant
  | .started p .running => s.call p = some .building → s.Vacant ∧ s.Watched p
  | .stopHost p => s.page p = some .left → s.Vacant
  | _ => True

/-- Calls take effect one after the other, as they were made, and no page is reloaded unless its
host has failed to start. -/
def InOrder (s : App) : Event → Prop
  | .reload p => (s.call p).all Start.failed
  | .startHost p | .started p _ => s.calls.head? = some (.start p)
  | .stopHost p => s.calls.head? = some (.stop p)
  | _ => True

instance (s : App) (e : Event) : Decidable (InOrder s e) := by
  cases e <;> unfold InOrder <;> infer_instance

structure Inv (s : App) : Prop where
  slotted : ∀ k, s.slot = some k → ∃ host, s.hosts[k]? = some host ∧ host.shutdown = false
  others : ∀ k host, s.hosts[k]? = some host → s.slot ≠ some k → host.shutdown = true
  made : ∀ k host, s.hosts[k]? = some host → s.call host.panel = some (.returned (.ok k))
  owned : ∀ p k, s.call p = some (.returned (.ok k)) →
    ∃ host, s.hosts[k]? = some host ∧ host.panel = p
  pumped : ∀ (k : ℕ) (host : RunningHost), s.hosts[k]? = some host → host.pump = false →
    host.shutdown = true ∨ host.finished = true ∨ s.page host.panel = some .reloaded

structure Sound (s : App) : Prop extends Inv s where
  held : ∀ p k, s.page p = some .shown → s.call p = some (.returned (.ok k)) → s.slot = some k
  watched : ∀ k host, s.slot = some k → s.hosts[k]? = some host → s.Watched host.panel

variable {s : App} {p q k : ℕ} {host : RunningHost}

theorem Sound.attached (h : Sound s) : Attached s := by
  refine ⟨fun p k hshown hcall => ?_, h.watched, h.others⟩
  have hslot : s.slot = some k := h.held p k hshown hcall
  obtain ⟨host, hhost, hpanel⟩ := h.owned p k hcall
  obtain ⟨host', hhost', hrunning⟩ := h.slotted k hslot
  cases hhost.symm.trans hhost'
  refine ⟨hslot, host, hhost, hpanel, hrunning, ?_⟩
  by_contra hpump
  simp only [not_or, Bool.not_eq_true] at hpump
  rcases h.pumped k host hhost hpump.1 with htold | hfinished | hreloaded
  · rw [hrunning] at htold
    cases htold
  · rw [hpump.2] at hfinished
    cases hfinished
  · rw [hpanel, hshown] at hreloaded
    cases hreloaded

@[simp] theorem call_setPage (page : Page) : (s.setPage p page).call q = s.call q := by
  rw [App.call, App.setPage, List.getElem?_modify, App.call]
  cases s.panels[q]? <;> split_ifs <;> rfl

@[simp] theorem page_setStart (start : Start) : (s.setStart p start).page q = s.page q := by
  rw [App.page, App.setStart, List.getElem?_modify, App.page]
  cases s.panels[q]? <;> split_ifs <;> rfl

theorem page_setPage (page : Page) :
    (s.setPage p page).page q = if p = q then (s.page q).map fun _ => page else s.page q := by
  rw [App.page, App.setPage, List.getElem?_modify, App.page]
  cases s.panels[q]? <;> split_ifs <;> rfl

theorem page_setPage_some {old : Page} (hold : s.page p = some old) (page : Page) :
    (s.setPage p page).page q = if p = q then some page else s.page q := by
  rw [page_setPage]
  split_ifs with hpq
  · rw [← hpq, hold]
    rfl
  · rfl

theorem call_setStart (start : Start) :
    (s.setStart p start).call q = if p = q then (s.call q).map fun _ => start else s.call q := by
  rw [App.call, App.setStart, List.getElem?_modify, App.call]
  cases s.panels[q]? <;> split_ifs <;> rfl

@[simp] theorem dropHost_slot : s.dropHost.slot = none := by
  rw [App.dropHost]
  split
  · assumption
  · rfl

@[simp] theorem dropHost_panels : s.dropHost.panels = s.panels := by
  rw [App.dropHost]
  split <;> rfl

@[simp] theorem dropHost_calls : s.dropHost.calls = s.calls := by
  rw [App.dropHost]
  split <;> rfl

@[simp] theorem dropHost_page : s.dropHost.page p = s.page p := by
  rw [App.page, dropHost_panels]
  rfl

@[simp] theorem dropHost_call : s.dropHost.call p = s.call p := by
  rw [App.call, dropHost_panels]
  rfl

theorem dropHost_hosts : s.dropHost.hosts[k]? = s.hosts[k]?.map fun host =>
    if s.slot = some k then { host with shutdown := true } else host := by
  rw [App.dropHost]
  split
  · rename_i hslot
    simp [hslot]
  · rename_i j hslot
    simp only [List.getElem?_modify, hslot, Option.some.injEq]
    rfl

theorem dropHost_length : s.dropHost.hosts.length = s.hosts.length := by
  rw [App.dropHost]
  split
  · rfl
  · exact List.length_modify ..

theorem Inv.dropHost (h : Inv s) : Inv s.dropHost := by
  have hold (k : ℕ) (host : RunningHost) (hhost : s.dropHost.hosts[k]? = some host) :
      ∃ old, s.hosts[k]? = some old ∧ host.panel = old.panel ∧ host.shutdown = true ∧
        host.pump = old.pump ∧ host.finished = old.finished := by
    rw [dropHost_hosts, Option.map_eq_some_iff] at hhost
    obtain ⟨old, holdAt, rfl⟩ := hhost
    refine ⟨old, holdAt, ?_⟩
    split_ifs with hslot
    · exact ⟨rfl, rfl, rfl, rfl⟩
    · exact ⟨rfl, h.others k old holdAt hslot, rfl, rfl⟩
  constructor
  · intro k hslot
    rw [dropHost_slot] at hslot
    cases hslot
  · intro k host hhost _
    obtain ⟨-, -, -, htold, -⟩ := hold k host hhost
    exact htold
  · intro k host hhost
    obtain ⟨old, holdAt, hpanel, -⟩ := hold k host hhost
    rw [dropHost_call, hpanel]
    exact h.made k old holdAt
  · intro p k hcall
    rw [dropHost_call] at hcall
    obtain ⟨host, hhost, hpanel⟩ := h.owned p k hcall
    rw [dropHost_hosts, hhost]
    refine ⟨_, rfl, ?_⟩
    split_ifs <;> exact hpanel
  · intro k host hhost _
    obtain ⟨-, -, -, htold, -⟩ := hold k host hhost
    exact .inl htold

theorem Sound.dropHost (h : Sound s) (hvacant : s.Vacant) : Sound s.dropHost := by
  refine ⟨h.toInv.dropHost, fun p k hshown hcall => ?_, fun k host hslot => ?_⟩
  · rw [dropHost_page] at hshown
    rw [dropHost_call] at hcall
    have hslot : s.slot = some k := h.held p k hshown hcall
    obtain ⟨host, hhost, rfl⟩ := h.owned p k hcall
    exact absurd hshown (hvacant k host hslot hhost)
  · rw [dropHost_slot] at hslot
    cases hslot

theorem Sound.setStart (h : Sound s) {start : Start} (hold : ∀ k, s.call p ≠
    some (.returned (.ok k))) (hnew : ∀ k, start ≠ .returned (.ok k)) :
    Sound (s.setStart p start) := by
  have hcall (q k : ℕ) : (s.setStart p start).call q = some (.returned (.ok k)) ↔
      s.call q = some (.returned (.ok k)) := by
    rw [call_setStart]
    split_ifs with hpq
    · subst hpq
      constructor
      · intro hnone
        obtain ⟨-, -, hstart⟩ := Option.map_eq_some_iff.mp hnone
        exact absurd hstart (hnew k)
      · exact fun hsome => absurd hsome (hold k)
    · rfl
  refine ⟨⟨h.slotted, h.others, ?_, ?_, ?_⟩, ?_, ?_⟩
  · exact fun k host hhost => (hcall host.panel k).mpr (h.made k host hhost)
  · exact fun q k hreturned => h.owned q k ((hcall q k).mp hreturned)
  · intro k host hhost hpump
    rw [page_setStart]
    exact h.pumped k host hhost hpump
  · intro q k hshown hreturned
    rw [page_setStart] at hshown
    exact h.held q k hshown ((hcall q k).mp hreturned)
  · intro k host hslot hhost
    simp only [App.Watched, page_setStart]
    exact h.watched k host hslot hhost

theorem Sound.withCalls (h : Sound s) (calls : List Call) : Sound { s with calls := calls } :=
  ⟨⟨h.slotted, h.others, h.made, h.owned, h.pumped⟩, h.held, h.watched⟩

theorem Sound.setPage (h : Sound s) {page : Page} (hpage : page ≠ .shown)
    (hreloaded : s.page p ≠ some .reloaded)
    (hwatched : ∀ k host, s.slot = some k → s.hosts[k]? = some host →
      (s.setPage p page).Watched host.panel) : Sound (s.setPage p page) := by
  refine ⟨⟨h.slotted, h.others, ?_, ?_, ?_⟩, ?_, hwatched⟩
  · intro k host hhost
    rw [call_setPage]
    exact h.made k host hhost
  · intro q k hcall
    rw [call_setPage] at hcall
    exact h.owned q k hcall
  · intro k host hhost hpump
    refine (h.pumped k host hhost hpump).imp_right (.imp_right fun hgone => ?_)
    rw [page_setPage, if_neg]
    · exact hgone
    · rintro rfl
      exact hreloaded hgone
  · intro q k hshown hcall
    rw [call_setPage] at hcall
    rw [page_setPage] at hshown
    split_ifs at hshown
    · obtain ⟨-, -, hnew⟩ := Option.map_eq_some_iff.mp hshown
      exact absurd hnew hpage
    · exact h.held q k hshown hcall

theorem Sound.leave (h : Sound s) : Sound (s.leave p) := by
  rw [App.leave]
  split_ifs with hshown
  · apply Sound.withCalls
    refine h.setPage nofun (by simp [hshown]) fun k host hslot hhost => ?_
    rw [App.Watched, page_setPage_some hshown]
    split_ifs with hpanel
    · exact .inr rfl
    · exact h.watched k host hslot hhost
  · exact h

theorem Sound.reload (h : Sound s) (hkept : s.page p = some .shown → ∀ k, s.slot = some k →
    s.call p ≠ some (.returned (.ok k))) : Sound (s.reload p) := by
  rw [App.reload]
  split_ifs with hshown
  · refine h.setPage nofun (by simp [hshown]) fun k host hslot hhost => ?_
    rw [App.Watched, page_setPage_some hshown, if_neg]
    · exact h.watched k host hslot hhost
    · rintro rfl
      exact hkept hshown k hslot (h.made k host hhost)
  · exact h

theorem Sound.stopHost (h : Sound s) (hvacant : s.page p = some .left → s.Vacant) :
    Sound (s.stopHost p) := by
  rw [App.stopHost]
  split_ifs with hleft
  · apply Sound.withCalls
    refine (h.dropHost (hvacant hleft)).setPage nofun (by simp [hleft]) fun k host hslot => ?_
    rw [dropHost_slot] at hslot
    cases hslot
  · exact h

theorem Sound.startHost (h : Sound s) (hvacant : s.call p = some .invoked → s.Vacant) :
    Sound (s.startHost p) := by
  rw [App.startHost]
  split_ifs with hinvoked
  · exact (h.dropHost (hvacant hinvoked)).setStart (by simp [hinvoked]) nofun
  · exact h

theorem snoc_getElem? {α : Type*} {xs : List α} {x y : α} :
    (xs ++ [y])[k]? = some x ↔ xs[k]? = some x ∨ k = xs.length ∧ x = y := by
  rcases Nat.lt_trichotomy k xs.length with hlt | rfl | hgt
  · rw [List.getElem?_append_left hlt]
    simp [hlt.ne]
  · simp [eq_comm]
  · rw [List.getElem?_append_right hgt.le, List.getElem?_eq_none hgt.le]
    simp [hgt.ne', Nat.sub_ne_zero_of_lt hgt]

theorem insertHost_hosts : (s.insertHost p).hosts[k]? = some host ↔
    s.dropHost.hosts[k]? = some host ∨
      k = s.hosts.length ∧ host = ⟨p, [], false, true, false⟩ := by
  rw [App.insertHost, snoc_getElem?, dropHost_length]

theorem call_returned (result : Except String ℕ) :
    (s.returned p result).call q = (s.setStart p (.returned result)).call q := rfl

theorem page_inserted (result : Except String ℕ) :
    ((s.insertHost p).returned p result).page q = s.page q := by
  change ((s.insertHost p).setStart p _).page q = s.page q
  rw [page_setStart]
  exact dropHost_page

theorem Sound.running (h : Sound s) (hbuilding : s.call p = some .building) (hvacant : s.Vacant)
    (hwatched : s.Watched p) : Sound ((s.insertHost p).returned p (.ok s.hosts.length)) := by
  have hdrop := h.dropHost hvacant
  have hcall (q : ℕ) : ((s.insertHost p).returned p (.ok s.hosts.length)).call q =
      if p = q then some (.returned (.ok s.hosts.length)) else s.dropHost.call q := by
    rw [call_returned, call_setStart]
    have hinsert : (s.insertHost p).call q = s.dropHost.call q := rfl
    rw [hinsert]
    split_ifs with hpq
    · rw [← hpq, dropHost_call, hbuilding]
      rfl
    · rfl
  have hpage (q : ℕ) : ((s.insertHost p).returned p (.ok s.hosts.length)).page q = s.page q :=
    page_inserted _
  -- the panel of an earlier host has its call behind it, and this one had not
  have hold {k : ℕ} {host : RunningHost} (hhost : s.dropHost.hosts[k]? = some host) :
      p ≠ host.panel := by
    rintro rfl
    have hmade := hdrop.made k host hhost
    rw [dropHost_call, hbuilding] at hmade
    cases hmade
  refine ⟨⟨?_, ?_, ?_, ?_, ?_⟩, ?_, ?_⟩
  · rintro k ⟨⟩
    exact ⟨_, insertHost_hosts.mpr (.inr ⟨rfl, rfl⟩), rfl⟩
  · intro k host hhost hslot
    rcases insertHost_hosts.mp hhost with hhost | ⟨rfl, -⟩
    · exact hdrop.others k host hhost (by simp)
    · exact absurd rfl hslot
  · intro k host hhost
    rw [hcall]
    rcases insertHost_hosts.mp hhost with hhost | ⟨rfl, rfl⟩
    · rw [if_neg (hold hhost)]
      exact hdrop.made k host hhost
    · exact if_pos rfl
  · intro q k hreturned
    rw [hcall] at hreturned
    split_ifs at hreturned with hpq
    · cases hreturned
      exact ⟨_, insertHost_hosts.mpr (.inr ⟨rfl, rfl⟩), hpq⟩
    · obtain ⟨host, hhost, hpanel⟩ := hdrop.owned q k hreturned
      exact ⟨host, insertHost_hosts.mpr (.inl hhost), hpanel⟩
  · intro k host hhost hpump
    rcases insertHost_hosts.mp hhost with hhost | ⟨-, rfl⟩
    · exact .inl (hdrop.others k host hhost (by simp))
    · cases hpump
  · intro q k hshown hreturned
    rw [hpage] at hshown
    rw [hcall] at hreturned
    split_ifs at hreturned
    · cases hreturned
      rfl
    · have hslot := hdrop.held q k (dropHost_page.trans hshown) hreturned
      rw [dropHost_slot] at hslot
      cases hslot
  · rintro k host ⟨⟩ hhost
    simp only [App.Watched, hpage]
    rcases insertHost_hosts.mp hhost with hhost | ⟨-, rfl⟩
    · have hlt := (List.getElem?_eq_some_iff.mp hhost).1
      rw [dropHost_length] at hlt
      exact absurd hlt (lt_irrefl _)
    · exact hwatched

theorem Sound.started (h : Sound s) (build : Build)
    (hok : build = .running → s.call p = some .building → s.Vacant ∧ s.Watched p) :
    Sound (s.started p build) := by
  unfold App.started
  split_ifs with hbuilding
  · have hfails (message : String) : Sound (s.returned p (.error message)) := by
      have hset : Sound (s.setStart p (.returned (.error message))) :=
        h.setStart (by simp [hbuilding]) nofun
      exact hset.withCalls _
    cases build with
    | panicked message => exact hfails message
    | refused message => exact hfails _
    | running =>
      obtain ⟨hvacant, hwatched⟩ := hok rfl hbuilding
      exact h.running hbuilding hvacant hwatched
  · exact h

theorem Sound.openHost (h : Sound s) : Sound s.openHost := by
  rw [App.openHost]
  split_ifs with hshown
  · exact h
  · have hpage {q : ℕ} {page : Page} (hq : s.page q = some page) :
        ({ s with panels := s.panels ++ [⟨.invoked, .shown⟩] } : App).page q = some page := by
      obtain ⟨panel, hpanel, rfl⟩ := Option.map_eq_some_iff.mp hq
      exact Option.map_eq_some_iff.mpr ⟨panel, snoc_getElem?.mpr (.inl hpanel), rfl⟩
    have hcall {q : ℕ} {k : ℕ} : ({ s with panels := s.panels ++ [⟨.invoked, .shown⟩] } : App).call
        q = some (.returned (.ok k)) ↔ s.call q = some (.returned (.ok k)) := by
      constructor
      · intro hq
        obtain ⟨panel, hpanel, hstart⟩ := Option.map_eq_some_iff.mp hq
        rcases snoc_getElem?.mp hpanel with hpanel | ⟨-, rfl⟩
        · exact Option.map_eq_some_iff.mpr ⟨panel, hpanel, hstart⟩
        · cases hstart
      · intro hq
        obtain ⟨panel, hpanel, hstart⟩ := Option.map_eq_some_iff.mp hq
        exact Option.map_eq_some_iff.mpr ⟨panel, snoc_getElem?.mpr (.inl hpanel), hstart⟩
    refine Sound.withCalls (s := { s with panels := s.panels ++ [⟨.invoked, .shown⟩] }) ?_ _
    refine ⟨⟨h.slotted, h.others, ?_, ?_, ?_⟩, ?_, ?_⟩
    · exact fun k host hhost => hcall.mpr (h.made k host hhost)
    · exact fun q k hq => h.owned q k (hcall.mp hq)
    · intro k host hhost hpump
      exact (h.pumped k host hhost hpump).imp_right (.imp_right hpage)
    · intro q k hq hreturned
      obtain ⟨panel, hpanel, hshown⟩ := Option.map_eq_some_iff.mp hq
      rcases snoc_getElem?.mp hpanel with hpanel | ⟨rfl, -⟩
      · exact h.held q k (Option.map_eq_some_iff.mpr ⟨panel, hpanel, hshown⟩) (hcall.mp hreturned)
      · obtain ⟨panel', hpanel', -⟩ := Option.map_eq_some_iff.mp (hcall.mp hreturned)
        exact absurd (List.getElem?_eq_some_iff.mp hpanel').1 (lt_irrefl _)
    · intro k host hslot hhost
      exact (h.watched k host hslot hhost).imp hpage hpage

theorem Sound.modify (h : Sound s) {f : RunningHost → RunningHost}
    (hf : ∀ host, (f host).panel = host.panel ∧ (f host).shutdown = host.shutdown)
    (hpump : ∀ host, (f host).pump = false → (host.pump = false ∨ host.shutdown = true ∨
      host.finished = true ∨ s.page host.panel = some .reloaded))
    (hfinished : ∀ host, host.finished = true → (f host).finished = true) :
    Sound { s with hosts := s.hosts.modify k f } := by
  have hold {j : ℕ} {host : RunningHost} (hhost : (s.hosts.modify k f)[j]? = some host) :
      ∃ old, s.hosts[j]? = some old ∧ (host = old ∨ host = f old) := by
    rw [List.getElem?_modify] at hhost
    obtain ⟨old, holdAt, rfl⟩ := Option.map_eq_some_iff.mp hhost
    refine ⟨old, holdAt, ?_⟩
    split_ifs
    · exact .inr rfl
    · exact .inl rfl
  have hnew {j : ℕ} {old : RunningHost} (holdAt : s.hosts[j]? = some old) :
      ∃ host, (s.hosts.modify k f)[j]? = some host ∧ host.panel = old.panel ∧
        host.shutdown = old.shutdown := by
    rw [List.getElem?_modify, holdAt]
    refine ⟨_, rfl, ?_⟩
    split_ifs
    · exact hf old
    · exact ⟨rfl, rfl⟩
  have hkept {old host : RunningHost} (hhost : host = old ∨ host = f old) :
      host.panel = old.panel ∧ host.shutdown = old.shutdown := by
    rcases hhost with rfl | rfl
    · exact ⟨rfl, rfl⟩
    · exact hf old
  refine ⟨⟨?_, ?_, ?_, ?_, ?_⟩, h.held, ?_⟩
  · intro j hslot
    obtain ⟨old, holdAt, hrunning⟩ := h.slotted j hslot
    obtain ⟨host, hhost, -, hshutdown⟩ := hnew holdAt
    exact ⟨host, hhost, hshutdown.trans hrunning⟩
  · intro j host hhost hslot
    obtain ⟨old, holdAt, hsame⟩ := hold hhost
    exact (hkept hsame).2.trans (h.others j old holdAt hslot)
  · intro j host hhost
    obtain ⟨old, holdAt, hsame⟩ := hold hhost
    rw [(hkept hsame).1]
    exact h.made j old holdAt
  · intro q j hcall
    obtain ⟨old, holdAt, hpanel⟩ := h.owned q j hcall
    obtain ⟨host, hhost, hsame, -⟩ := hnew holdAt
    exact ⟨host, hhost, hsame.trans hpanel⟩
  · intro j host hhost hended
    obtain ⟨old, holdAt, hsame⟩ := hold hhost
    rcases hsame with rfl | rfl
    · exact h.pumped j host holdAt hended
    · rw [(hf old).1, (hf old).2]
      rcases hpump old hended with hpump | htold | hfinished' | hgone
      · exact (h.pumped j old holdAt hpump).imp_right (.imp_left (hfinished old))
      · exact .inl htold
      · exact .inr (.inl (hfinished old hfinished'))
      · exact .inr (.inr hgone)
  · intro j host hslot hhost
    obtain ⟨old, holdAt, hsame⟩ := hold hhost
    rw [(hkept hsame).1]
    exact h.watched j old hslot holdAt

theorem Sound.hostCommand (h : Sound s) (action : String) : Sound (s.hostCommand action).2 := by
  unfold App.hostCommand
  split
  · exact h
  · split
    · exact h
    · apply h.modify
      · intro host
        split_ifs <;> exact ⟨rfl, rfl⟩
      · intro host hpump
        split_ifs at hpump <;> exact .inl hpump
      · intro host hfinished
        rwa [if_pos hfinished]

theorem Sound.pumpEnds (h : Sound s) (k : ℕ) : Sound (s.pumpEnds k) := by
  apply h.modify
  · intro host
    split_ifs <;> exact ⟨rfl, rfl⟩
  · intro host hpump
    -- the pump only ends where the invariant allows it
    split_ifs at hpump with hends
    · simp only [Bool.or_eq_true, decide_eq_true_eq, or_assoc] at hends
      exact .inr hends
    · exact .inl hpump
  · intro host hfinished
    split_ifs <;> exact hfinished

theorem Sound.hostEnds (h : Sound s) (k : ℕ) : Sound (s.hostEnds k) :=
  h.modify (fun _ => ⟨rfl, rfl⟩) (fun _ hpump => .inl hpump) fun _ _ => rfl

theorem Sound.step (h : Sound s) (e : Event) (hok : Careful s e) : Sound (s.step e) := by
  cases e with
  | openHost => exact h.openHost
  | leave p => exact h.leave
  | reload p => exact h.reload hok
  | startHost p => exact h.startHost hok
  | started p build =>
    refine h.started build fun hrunning => ?_
    rw [hrunning] at hok
    exact hok
  | stopHost p => exact h.stopHost hok
  | hostCommand action => exact h.hostCommand action
  | pumpEnds k => exact h.pumpEnds k
  | hostEnds k => exact h.hostEnds k

theorem sound_start : Sound .start :=
  ⟨⟨nofun, nofun, nofun, nofun, nofun⟩, nofun, nofun⟩

theorem vacant_of_attached (h : Sound s) {t : App} (hafter : Attached t)
    (hpage : ∀ q, t.page q = some .shown ↔ s.page q = some .shown)
    (hcall : ∀ q k, s.call q = some (.returned (.ok k)) → t.call q = some (.returned (.ok k)))
    (hslot : ∀ k, s.slot = some k → t.slot ≠ some k) : s.Vacant := by
  intro k host hk hhost hshown
  have hserves := hafter.serves host.panel k ((hpage _).mpr hshown)
    (hcall _ k (h.made k host hhost))
  exact hslot k hk hserves.1

theorem call_setStart_returned {start : Start} (hold : ∀ k, s.call p ≠ some (.returned (.ok k)))
    (hq : s.call q = some (.returned (.ok k))) :
    (s.setStart p start).call q = some (.returned (.ok k)) := by
  rw [call_setStart, if_neg]
  · exact hq
  · rintro rfl
    exact hold k hq

theorem careful_of_attached (h : Sound s) (e : Event) (hafter : Attached (s.step e)) :
    Careful s e := by
  cases e with
  | reload p =>
    intro hshown k hslot hcall
    rw [App.step, App.reload, if_pos hshown] at hafter
    obtain ⟨host, hhost, hpanel⟩ := h.owned p k hcall
    have hwatched := hafter.watched k host hslot hhost
    rw [App.Watched, page_setPage_some hshown, if_pos hpanel.symm] at hwatched
    rcases hwatched with hgone | hgone <;> cases hgone
  | startHost p =>
    intro hinvoked
    rw [App.step, App.startHost, if_pos hinvoked] at hafter
    refine vacant_of_attached h hafter (by simp) (fun q k hq => ?_) fun k _ hk => ?_
    · exact call_setStart_returned (by simp [hinvoked]) (dropHost_call.trans hq)
    · cases dropHost_slot.symm.trans hk
  | started p build =>
    cases build with
    | panicked message => trivial
    | refused message => trivial
    | running =>
      intro hbuilding
      have hpage (q : ℕ) : (s.step (.started p .running)).page q = s.page q := by
        rw [App.step, App.started, if_pos hbuilding]
        exact page_inserted _
      -- the new host takes the slot, which the old one in it does not survive
      have hslot : (s.step (.started p .running)).slot = some s.hosts.length := by
        rw [App.step, App.started, if_pos hbuilding]
        rfl
      refine ⟨vacant_of_attached h hafter (by simp [hpage]) (fun q k hq => ?_) fun k hk hlast => ?_,
        ?_⟩
      · rw [App.step, App.started, if_pos hbuilding, call_returned]
        refine call_setStart_returned (fun k hp => ?_) (dropHost_call.trans hq)
        cases hbuilding.symm.trans (dropHost_call.symm.trans hp)
      · obtain ⟨host, hhost, -⟩ := h.slotted k hk
        have hlt := (List.getElem?_eq_some_iff.mp hhost).1
        cases hslot.symm.trans hlast
        exact lt_irrefl _ hlt
      · have hhost : (s.step (.started p .running)).hosts[s.hosts.length]? =
            some ⟨p, [], false, true, false⟩ := by
          rw [App.step, App.started, if_pos hbuilding]
          exact insertHost_hosts.mpr (.inr ⟨rfl, rfl⟩)
        have hwatched := hafter.watched _ _ hslot hhost
        simpa only [App.Watched, hpage] using hwatched
  | stopHost p =>
    intro hleft
    rw [App.step, App.stopHost, if_pos hleft] at hafter
    have hpage (q : ℕ) : (s.dropHost.setPage p .stopped).page q = some .shown ↔
        s.page q = some .shown := by
      rw [page_setPage, dropHost_page]
      split_ifs with hpq
      · rw [← hpq, hleft]
        simp
      · rfl
    refine vacant_of_attached h hafter hpage (fun q k hq => ?_) fun k _ hk => ?_
    · exact (call_setPage _).trans (dropHost_call.trans hq)
    · cases dropHost_slot.symm.trans hk
  | _ => trivial

theorem host_keeps_its_panel_iff (es : List Event) :
    Meets App.step Careful .start es ↔
      ∀ pre, pre <+: es → Attached (pre.foldl App.step .start) :=
  meets_iff sound_start (fun _ => Sound.attached) (fun _ e h hok => h.step e hok)
    fun _ e h hafter => careful_of_attached h e hafter

/-- The panel is left while its host starts: `stop_host` finds nothing, and the host stays. -/
theorem late_start_outlives_panel :
    let s := [.openHost, .startHost 0, .leave 0, .stopHost 0, .started 0 .running].foldl
      App.step .start
    s.slot = some 0 ∧ s.hosts = [⟨0, [], false, true, false⟩] ∧
      s.panels = [⟨.returned (.ok 0), .stopped⟩] ∧ s.calls = [] ∧ ¬Attached s := by
  refine ⟨rfl, rfl, rfl, rfl, fun hattached => ?_⟩
  rcases hattached.watched 0 _ rfl rfl with hshown | hleft
  · cases hshown
  · cases hleft

/-- The panel is opened again, and the `stop_host` of the last time takes its host. -/
theorem late_stop_takes_next_host :
    let s := [.openHost, .startHost 0, .started 0 .running, .leave 0, .openHost, .startHost 1,
      .started 1 .running, .stopHost 0].foldl App.step .start
    s.slot = none ∧ s.page 1 = some .shown ∧ s.call 1 = some (.returned (.ok 1)) ∧
      ¬Attached s := by
  refine ⟨rfl, rfl, rfl, fun hattached => ?_⟩
  cases (hattached.serves 1 1 rfl rfl).1

theorem Attached.hostCommand (h : Attached s) (hshown : s.page p = some .shown)
    (hcall : s.call p = some (.returned (.ok k))) {action : String} {c : HostCommand}
    (hc : command action = some c) :
    (s.hostCommand action).1 = .ok () ∧ ∀ (j : ℕ) (host : RunningHost), s.hosts[j]? = some host →
      (s.hostCommand action).2.hosts[j]? = some (if j = k ∧ host.finished = false then
        { host with commands := host.commands ++ [c] } else host) := by
  have hslot : s.slot = some k := (h.serves p k hshown hcall).1
  unfold App.hostCommand
  simp only [hslot, hc]
  refine ⟨trivial, fun j host hhost => ?_⟩
  rw [List.getElem?_modify, hhost]
  by_cases hj : k = j
  · subst hj
    cases hfinished : host.finished <;> simp [hfinished]
  · have hne : ¬j = k := fun hjk => hj hjk.symm
    simp [hj, hne]

def Call.panel : Call → ℕ
  | .start p | .stop p => p

def Call.rank : Call → ℕ
  | .start p => 2 * p
  | .stop p => 2 * p + 1

/-- The calls under way, when they are taken up one by one. -/
structure Ordered (s : App) : Prop where
  sorted : s.calls.Pairwise fun c d => c.rank < d.rank
  known : ∀ c ∈ s.calls, c.panel < s.panels.length
  stops : ∀ p, .stop p ∈ s.calls → s.page p = some .left
  stopped : ∀ p, s.page p = some .stopped → ∀ c ∈ s.calls, 2 * p + 1 < c.rank
  last : ∀ p, s.page p = some .shown → p + 1 = s.panels.length
  idle : ∀ k host, s.slot = some k → s.hosts[k]? = some host →
    s.page host.panel = some .shown → s.calls = []
  failed : ∀ p, s.page p = some .reloaded → (s.call p).all Start.failed

theorem Ordered.vacant (h : Ordered s) {c : Call} (hc : s.calls.head? = some c) : s.Vacant := by
  intro k host hslot hhost hshown
  rw [h.idle k host hslot hhost hshown] at hc
  cases hc

theorem Ordered.watched (h : Ordered s) (hc : s.calls.head? = some (.start p))
    (hbuilding : s.call p = some .building) : s.Watched p := by
  obtain ⟨panel, hpanel, -⟩ := Option.map_eq_some_iff.mp hbuilding
  have hpage : s.page p = some panel.page := Option.map_eq_some_iff.mpr ⟨panel, hpanel, rfl⟩
  cases hp : panel.page with
  | shown => exact .inl (hp ▸ hpage)
  | left => exact .inr (hp ▸ hpage)
  | reloaded =>
    have hfailed := h.failed p (hp ▸ hpage)
    rw [hbuilding] at hfailed
    cases hfailed
  | stopped =>
    have hlt := h.stopped p (hp ▸ hpage) (.start p) (List.mem_of_mem_head? hc)
    simp only [Call.rank] at hlt
    omega

theorem Ordered.careful (h : Ordered s) (e : Event) (hok : InOrder s e) : Careful s e := by
  cases e with
  | reload p =>
    intro _ k _ hcall
    rw [InOrder, hcall] at hok
    cases hok
  | startHost p => exact fun _ => h.vacant hok
  | started p build =>
    cases build with
    | running => exact fun hbuilding => ⟨h.vacant hok, h.watched hok hbuilding⟩
    | _ => trivial
  | stopHost p => exact fun _ => h.vacant hok
  | _ => trivial

theorem Ordered.congr (h : Ordered s) {t : App} (hlength : t.panels.length = s.panels.length)
    (hpage : ∀ q, t.page q = s.page q) (hcalls : t.calls = s.calls)
    (hidle : ∀ k host, t.slot = some k → t.hosts[k]? = some host →
      t.page host.panel = some .shown → t.calls = [])
    (hcall : ∀ q, (s.call q).all Start.failed → (t.call q).all Start.failed) : Ordered t where
  sorted := hcalls ▸ h.sorted
  known := by
    rw [hcalls, hlength]
    exact h.known
  stops p hp := by
    rw [hcalls] at hp
    rw [hpage]
    exact h.stops p hp
  stopped p hp := by
    rw [hpage] at hp
    rw [hcalls]
    exact h.stopped p hp
  last p hp := by
    rw [hpage] at hp
    rw [hlength]
    exact h.last p hp
  idle := hidle
  failed p hp := by
    rw [hpage] at hp
    exact hcall p (h.failed p hp)

theorem lt_of_page {page : Page} (h : s.page p = some page) : p < s.panels.length := by
  obtain ⟨panel, hpanel, -⟩ := Option.map_eq_some_iff.mp h
  exact (List.getElem?_eq_some_iff.mp hpanel).1

theorem Call.rank_lt {c : Call} {n : ℕ} (h : c.panel < n) : c.rank < 2 * n := by
  cases c <;> simp only [Call.panel, Call.rank] at * <;> omega

theorem Ordered.rank_shown (h : Ordered s) (hshown : s.page p = some .shown) {c : Call}
    (hc : c ∈ s.calls) : c.rank < 2 * p + 1 := by
  have hknown := h.known c hc
  have hlast := h.last p hshown
  cases c with
  | start q =>
    simp only [Call.panel, Call.rank] at *
    omega
  | stop q =>
    have hne : q ≠ p := by
      rintro rfl
      cases hshown.symm.trans (h.stops q hc)
    simp only [Call.panel, Call.rank] at *
    omega

theorem failed_setStart {old : Start} (hp : s.call p = some old) (hold : old.failed = false)
    (start : Start) (hq : (s.call q).all Start.failed) :
    ((s.setStart p start).call q).all Start.failed := by
  rw [call_setStart, if_neg]
  · exact hq
  · rintro rfl
    rw [hp, Option.all_some, hold] at hq
    cases hq

theorem Ordered.openHost (h : Ordered s) (hs : Inv s) : Ordered s.openHost := by
  rw [App.openHost]
  split_ifs with hany
  · exact h
  · have hpage {q : ℕ} {page : Page} (hq : s.openHost.page q = some page) :
        s.page q = some page ∨ q = s.panels.length ∧ page = .shown := by
      rw [App.openHost, if_neg hany] at hq
      obtain ⟨panel, hpanel, rfl⟩ := Option.map_eq_some_iff.mp hq
      exact (snoc_getElem?.mp hpanel).imp (fun hpanel => Option.map_eq_some_iff.mpr
        ⟨panel, hpanel, rfl⟩) fun ⟨hq, hnew⟩ => ⟨hq, by rw [hnew]⟩
    have hnone (q : ℕ) : s.page q ≠ some .shown := by
      intro hshown
      obtain ⟨panel, hpanel, hpageShown⟩ := Option.map_eq_some_iff.mp hshown
      apply hany
      rw [List.any_eq_true]
      exact ⟨panel, List.mem_of_getElem? hpanel, by simp [hpageShown]⟩
    rw [App.openHost, if_neg hany] at hpage
    -- its call comes last, since every call so far is one of an earlier panel
    refine ⟨?_, ?_, ?_, ?_, ?_, ?_, ?_⟩
    · refine List.pairwise_append.mpr ⟨h.sorted, List.pairwise_singleton _ _, ?_⟩
      intro c hc d hd
      rw [List.mem_singleton.mp hd]
      exact Call.rank_lt (h.known c hc)
    · intro c hc
      rw [List.length_append]
      rcases List.mem_append.mp hc with hc | hc
      · exact (h.known c hc).trans (Nat.lt_succ_self _)
      · rw [List.mem_singleton.mp hc]
        exact Nat.lt_succ_self _
    · intro q hq
      rcases List.mem_append.mp hq with hq | hq
      · obtain ⟨panel, hpanel, hleft⟩ := Option.map_eq_some_iff.mp (h.stops q hq)
        exact Option.map_eq_some_iff.mpr ⟨panel, snoc_getElem?.mpr (.inl hpanel), hleft⟩
      · simp at hq
    · intro q hq c hc
      rcases hpage hq with hq | ⟨-, hnew⟩
      · rcases List.mem_append.mp hc with hc | hc
        · exact h.stopped q hq c hc
        · have hlt := lt_of_page hq
          rw [List.mem_singleton.mp hc, Call.rank]
          omega
      · cases hnew
    · intro q hq
      rcases hpage hq with hq | ⟨rfl, -⟩
      · exact absurd hq (hnone q)
      · rw [List.length_append]
        rfl
    · intro k host _ hhost hshown
      rcases hpage hshown with hshown | ⟨hnew, -⟩
      · exact absurd hshown (hnone _)
      · obtain ⟨panel, hpanel, -⟩ := Option.map_eq_some_iff.mp (hs.made k host hhost)
        have hlt := (List.getElem?_eq_some_iff.mp hpanel).1
        exact absurd hnew hlt.ne
    · intro q hq
      rcases hpage hq with hq | ⟨-, hnew⟩
      · have hcall : ({ s with panels := s.panels ++ [⟨.invoked, .shown⟩] } : App).call q =
            s.call q := by
          rw [App.call, App.call, List.getElem?_append_left (lt_of_page hq)]
        exact hcall ▸ h.failed q hq
      · cases hnew

theorem Ordered.leave (h : Ordered s) : Ordered (s.leave p) := by
  rw [App.leave]
  split_ifs with hshown
  · have hlast := h.last p hshown
    have hpage (q : ℕ) : (s.setPage p .left).page q = if p = q then some .left else s.page q :=
      page_setPage_some hshown _
    have hlength : (s.setPage p .left).panels.length = s.panels.length := List.length_modify ..
    have hgone (q : ℕ) : (s.setPage p .left).page q ≠ some .shown := by
      rw [hpage]
      split_ifs with hpq
      · simp
      · intro hq
        have hlast' := h.last q hq
        omega
    refine ⟨?_, ?_, ?_, ?_, ?_, ?_, ?_⟩
    · refine List.pairwise_append.mpr ⟨h.sorted, List.pairwise_singleton _ _, ?_⟩
      intro c hc d hd
      rw [List.mem_singleton.mp hd]
      exact h.rank_shown hshown hc
    · intro c hc
      rw [hlength]
      rcases List.mem_append.mp hc with hc | hc
      · exact h.known c hc
      · rw [List.mem_singleton.mp hc]
        exact lt_of_page hshown
    · intro q hq
      change (s.setPage p .left).page q = some .left
      rw [hpage]
      split_ifs with hpq
      · rfl
      · rcases List.mem_append.mp hq with hq | hq
        · exact h.stops q hq
        · rw [List.mem_singleton, Call.stop.injEq] at hq
          exact absurd hq.symm hpq
    · intro q hq c hc
      change (s.setPage p .left).page q = _ at hq
      rw [hpage] at hq
      split_ifs at hq with hpq
      · cases hq
      · rcases List.mem_append.mp hc with hc | hc
        · exact h.stopped q hq c hc
        · have hlt := lt_of_page hq
          rw [List.mem_singleton.mp hc, Call.rank]
          omega
    · exact fun q hq => absurd hq (hgone q)
    · exact fun k host _ _ hq => absurd hq (hgone _)
    · intro q hq
      change ((s.setPage p .left).call q).all _
      change (s.setPage p .left).page q = _ at hq
      rw [call_setPage]
      rw [hpage] at hq
      split_ifs at hq
      · cases hq
      · exact h.failed q hq
  · exact h

theorem Ordered.reload (h : Ordered s) (hfailed : (s.call p).all Start.failed) :
    Ordered (s.reload p) := by
  rw [App.reload]
  split_ifs with hshown
  · have hpage (q : ℕ) : (s.setPage p .reloaded).page q =
        if p = q then some .reloaded else s.page q := page_setPage_some hshown _
    have hlength : (s.setPage p .reloaded).panels.length = s.panels.length :=
      List.length_modify ..
    have hother {q : ℕ} {page : Page} (hq : (s.setPage p .reloaded).page q = some page)
        (hnew : page ≠ .reloaded) : s.page q = some page := by
      rw [hpage] at hq
      split_ifs at hq with hpq
      · cases hq
        exact absurd rfl hnew
      · exact hq
    refine ⟨h.sorted, ?_, ?_, ?_, ?_, ?_, ?_⟩
    · rw [hlength]
      exact h.known
    · intro q hq
      have hleft := h.stops q hq
      rw [hpage, if_neg]
      · exact hleft
      · rintro rfl
        cases hshown.symm.trans hleft
    · exact fun q hq => h.stopped q (hother hq nofun)
    · rw [hlength]
      exact fun q hq => h.last q (hother hq nofun)
    · exact fun k host hslot hhost hq => h.idle k host hslot hhost (hother hq nofun)
    · intro q hq
      rw [call_setPage]
      rw [hpage] at hq
      split_ifs at hq with hpq
      · exact hpq ▸ hfailed
      · exact h.failed q hq
  · exact h

theorem setStart_length (start : Start) : (s.setStart p start).panels.length = s.panels.length :=
  List.length_modify ..

theorem Ordered.startHost (h : Ordered s) : Ordered (s.startHost p) := by
  rw [App.startHost]
  split_ifs with hinvoked
  · refine h.congr ?_ (by simp) ?_ (fun k _ hslot => ?_) fun q hq => ?_
    · rw [setStart_length, dropHost_panels]
    · exact dropHost_calls
    · cases dropHost_slot.symm.trans hslot
    · rw [← dropHost_call] at hinvoked hq
      exact failed_setStart hinvoked rfl _ hq
  · exact h

theorem Ordered.tail (h : Ordered s) {c : Call} (hc : s.calls.head? = some c) {t : App}
    (hlength : t.panels.length = s.panels.length) (hcalls : t.calls = s.calls.erase c)
    (hpage : ∀ q, t.page q = s.page q ∨
      c = .stop q ∧ s.page q = some .left ∧ t.page q = some .stopped)
    (hidle : ∀ k host, t.slot = some k → t.hosts[k]? = some host →
      t.page host.panel = some .shown → t.calls = [])
    (hcall : ∀ q, (s.call q).all Start.failed → (t.call q).all Start.failed) : Ordered t := by
  obtain ⟨calls, hs⟩ := List.head?_eq_some_iff.mp hc
  rw [hs, List.erase_cons_head] at hcalls
  have hsorted := h.sorted
  rw [hs] at hsorted
  have hmem {d : Call} (hd : d ∈ t.calls) : d ∈ s.calls ∧ c.rank < d.rank := by
    rw [hcalls] at hd
    rw [hs]
    exact ⟨List.mem_cons_of_mem _ hd, List.rel_of_pairwise_cons hsorted hd⟩
  refine ⟨?_, ?_, ?_, ?_, ?_, hidle, ?_⟩
  · rw [hcalls]
    exact hsorted.tail
  · rw [hlength]
    exact fun d hd => h.known d (hmem hd).1
  · intro q hq
    obtain ⟨hold, hrank⟩ := hmem hq
    rcases hpage q with hsame | ⟨rfl, -, -⟩
    · rw [hsame]
      exact h.stops q hold
    -- the call that is over is the only one with its rank
    · exact absurd hrank (lt_irrefl _)
  · intro q hq d hd
    obtain ⟨hold, hrank⟩ := hmem hd
    rcases hpage q with hsame | ⟨rfl, -, -⟩
    · exact h.stopped q (hsame.symm.trans hq) d hold
    · exact hrank
  · intro q hq
    rw [hlength]
    rcases hpage q with hsame | ⟨-, -, hnew⟩
    · exact h.last q (hsame.symm.trans hq)
    · cases hnew.symm.trans hq
  · intro q hq
    rcases hpage q with hsame | ⟨-, -, hnew⟩
    · exact hcall q (h.failed q (hsame.symm.trans hq))
    · cases hnew.symm.trans hq

theorem Ordered.started (h : Ordered s) (hc : s.calls.head? = some (.start p)) (build : Build) :
    Ordered (s.started p build) := by
  unfold App.started
  split_ifs with hbuilding
  · have hfails (result : Except String ℕ) : Ordered (s.returned p result) := by
      refine h.tail hc (setStart_length _) rfl (fun q => .inl (page_setStart _))
        (fun k host hslot hhost hshown => ?_) fun q hq => failed_setStart hbuilding rfl _ hq
      exact absurd ((page_setStart _).symm.trans hshown) (h.vacant hc k host hslot hhost)
    cases build with
    | panicked message => exact hfails _
    | refused message => exact hfails _
    | running =>
      have hcalls : ((s.insertHost p).returned p (.ok s.hosts.length)).calls =
          s.calls.erase (.start p) := by
        change s.dropHost.calls.erase _ = _
        rw [dropHost_calls]
      refine h.tail hc ?_ hcalls (fun q => .inl (page_inserted _)) ?_ ?_
      · exact (setStart_length _).trans (congrArg _ dropHost_panels)
      · -- a panel on the screen is the last one, and its own call is the last call
        rintro k host ⟨⟩ hhost hshown
        rcases insertHost_hosts.mp hhost with hhost | ⟨-, rfl⟩
        · have hlt := (List.getElem?_eq_some_iff.mp hhost).1
          rw [dropHost_length] at hlt
          exact absurd hlt (lt_irrefl _)
        · rw [page_inserted] at hshown
          obtain ⟨calls, hs⟩ := List.head?_eq_some_iff.mp hc
          rw [hcalls, hs, List.erase_cons_head]
          refine List.eq_nil_iff_forall_not_mem.mpr fun d hd => ?_
          have hsorted := h.sorted
          rw [hs] at hsorted
          have hlater : 2 * p < d.rank := List.rel_of_pairwise_cons hsorted hd
          have hrank : d.rank < 2 * p + 1 :=
            h.rank_shown hshown (hs ▸ List.mem_cons_of_mem _ hd)
          omega
      · intro q hq
        rw [← dropHost_call] at hbuilding hq
        exact failed_setStart (s := s.insertHost p) hbuilding rfl _ hq
  · exact h

theorem Ordered.stopHost (h : Ordered s) (hc : s.calls.head? = some (.stop p)) :
    Ordered (s.stopHost p) := by
  rw [App.stopHost]
  split_ifs with hleft
  · refine h.tail hc ?_ rfl (fun q => ?_) (fun k host hslot => ?_) fun q hq => ?_
    · exact (List.length_modify ..).trans (congrArg _ dropHost_panels)
    · change (s.dropHost.setPage p .stopped).page q = _ ∨
        _ ∧ _ ∧ (s.dropHost.setPage p .stopped).page q = _
      rw [page_setPage, dropHost_page]
      split_ifs with hpq
      · rw [← hpq, hleft]
        exact .inr ⟨rfl, rfl, rfl⟩
      · exact .inl rfl
    · cases dropHost_slot.symm.trans hslot
    · change ((s.dropHost.setPage p .stopped).call q).all _
      rwa [call_setPage, dropHost_call]
  · exact h

theorem Ordered.modify (h : Ordered s) {f : RunningHost → RunningHost}
    (hf : ∀ host, (f host).panel = host.panel) :
    Ordered { s with hosts := s.hosts.modify k f } := by
  refine h.congr rfl (fun _ => rfl) rfl (fun j host hslot hhost hshown => ?_) fun _ hq => hq
  change (s.hosts.modify k f)[j]? = some host at hhost
  rw [List.getElem?_modify] at hhost
  obtain ⟨old, holdAt, rfl⟩ := Option.map_eq_some_iff.mp hhost
  refine h.idle j old hslot holdAt ?_
  split_ifs at hshown
  · rwa [hf] at hshown
  · exact hshown

theorem Ordered.step (h : Ordered s) (hs : Inv s) (e : Event) (hok : InOrder s e) :
    Ordered (s.step e) := by
  cases e with
  | openHost => exact h.openHost hs
  | leave p => exact h.leave
  | reload p => exact h.reload hok
  | startHost p => exact h.startHost
  | started p build => exact h.started hok build
  | stopHost p => exact h.stopHost hok
  | hostCommand action =>
    rw [App.step]
    unfold App.hostCommand
    split
    · exact h
    · split
      · exact h
      · apply h.modify
        intro host
        split_ifs <;> rfl
  | pumpEnds k =>
    apply h.modify
    intro host
    split_ifs <;> rfl
  | hostEnds k => exact h.modify fun _ => rfl

theorem ordered_start : Ordered .start :=
  ⟨List.Pairwise.nil, nofun, nofun, nofun, nofun, nofun, nofun⟩

/-- Were the calls taken up in order, every host would keep its panel and every panel its host. -/
theorem calls_in_order_keep_panel (es : List Event) (h : Meets App.step InOrder .start es) :
    ∀ pre, pre <+: es → Attached (pre.foldl App.step .start) := by
  refine h.always (I := fun s => Sound s ∧ Ordered s) ⟨sound_start, ordered_start⟩
    (fun _ hs => hs.1.attached) ?_
  intro s e ⟨hsound, hordered⟩ hok
  exact ⟨hsound.step e (hordered.careful e hok), hordered.step hsound.toInv e hok⟩

/-- The host screen, left while its host starts, and the host screen again. -/
theorem reopened_panel_keeps_host :
    Attached ([.openHost, .startHost 0, .leave 0, .openHost, .started 0 .running, .stopHost 0,
      .startHost 1, .started 1 .running].foldl App.step .start) :=
  calls_in_order_keep_panel _ (by decide) _ (List.prefix_refl _)

end Controlis.Host.Lifecycle
