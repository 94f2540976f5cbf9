import TreeKinds.Files.Access
import TreeKinds.Run

/-! What a computation adds to the log. It is run on a tree twice: on a host that keeps no log, and
on one that adds each event to its log at once, as the filter has it. Proved: each request to the
host, and from it each part of a run, comes to the same on both, and what is added to the log is
what the filter makes of a list of events that is the same for all filters. -/
namespace TreeKinds

open Files (FileTree WriteFailure)

namespace Log

/-! ### Lines of several events -/

/-- What events add to the log, one after the other. -/
def Filter.render (f : Filter) (events : List Event) : String := String.join (events.map f.entry)

theorem Filter.render_append (f : Filter) (events more : List Event) :
    f.render (events ++ more) = f.render events ++ f.render more := by
  rw [render, List.map_append, String.join_append, render, render]

/-- Both computations lead from the tree `t` to the result `a` and the tree `u`. The first keeps no
log, and to that of the second the events are added. -/
structure Logs {α : Type} (t : FileTree) (x : StateM FileTree α)
    (y : Filter → StateT String (StateM FileTree) α) (events : List Event) (a : α) (u : FileTree) :
    Prop where
  silent : x.run t = (a, u)
  logged : ∀ filter log, ((y filter).run log).run t = ((a, log ++ filter.render events), u)

variable {α β : Type} {t u v : FileTree} {x : StateM FileTree α}
  {y : Filter → StateT String (StateM FileTree) α} {events more : List Event} {a : α} {b : β}

theorem logs_pure (t : FileTree) (a : α) : Logs t (pure a) (fun _ => pure a) [] a t where
  silent := rfl
  logged filter log := by
    have hnone : filter.render [] = "" := rfl
    rw [hnone, String.append_empty]
    rfl

theorem Logs.bind {f : α → StateM FileTree β}
    {g : Filter → α → StateT String (StateM FileTree) β} (hx : Logs t x y events a u)
    (hf : Logs u (f a) (fun filter => g filter a) more b v) :
    Logs t (x >>= f) (fun filter => y filter >>= g filter) (events ++ more) b v where
  silent := by
    rw [StateT.run_bind, hx.silent]
    exact hf.silent
  logged filter log := by
    rw [StateT.run_bind, StateT.run_bind, hx.logged]
    rw [Filter.render_append, ← String.append_assoc]
    exact hf.logged filter _

/-- What is made of the result makes no difference to the log. -/
theorem Logs.map (h : Logs t x y events a u) (f : α → β) :
    Logs t (do return f (← x)) (fun filter => do return f (← y filter)) events (f a) u := by
  have hmap := h.bind (f := fun a => pure (f a)) (g := fun _ a => pure (f a)) (logs_pure u (f a))
  rwa [List.append_nil] at hmap

/-! ### Requests to the host -/

variable {path : String}

/-- A request for a file says nothing to the log. -/
theorem logs_lift (t : FileTree) (x : StateM FileTree α) :
    Logs t x (fun _ => StateT.lift x) [] (x.run t).1 (x.run t).2 where
  silent := rfl
  logged filter log := by
    have hnone : filter.render [] = "" := rfl
    rw [hnone, String.append_empty]
    rfl

theorem logs_read (t : FileTree) (limit : Option Nat) (path : String) :
    Logs t ((FileTree.disk limit).read path)
      (fun filter => ((FileTree.disk limit).logged filter).read path) [] (t.read path) t :=
  logs_lift t _

theorem logs_write (t : FileTree) (limit : Option Nat) (path : String) (blocks : List Bytes) :
    Logs t ((FileTree.disk limit).write path blocks)
      (fun filter => ((FileTree.disk limit).logged filter).write path blocks) []
      (t.write limit path blocks).1 (t.write limit path blocks).2 :=
  logs_lift t _

theorem logs_remove (t : FileTree) (limit : Option Nat) (path : String) :
    Logs t ((FileTree.disk limit).remove path)
      (fun filter => ((FileTree.disk limit).logged filter).remove path) [] (t.remove path).1
      (t.remove path).2 :=
  logs_lift t _

theorem logs_log (t : FileTree) (limit : Option Nat) (e : Event) :
    Logs t ((FileTree.disk limit).log e)
      (fun filter => ((FileTree.disk limit).logged filter).log e) [e] () t where
  silent := rfl
  logged filter log := by
    have hone : filter.render [e] = filter.entry e := String.empty_append
    rw [hone]
    rfl

end Log

open Log (Logs logs_pure logs_read logs_write logs_remove logs_log)

/-! ### Reading -/

variable {t : FileTree} {path : String}

namespace Description

theorem logs_loadFile_of_error {e : LoadError} (h : ofReading (t.read path) = .error e)
    (limit : Option Nat) : Logs t (loadFile (FileTree.disk limit) path)
      (fun filter => loadFile ((FileTree.disk limit).logged filter) path) [] (.error e) t := by
  unfold loadFile
  refine (logs_read t limit path).bind ?_
  rw [h]
  exact logs_pure t _

theorem logs_loadFile_of_ok {kinds : Registry} (h : ofReading (t.read path) = .ok kinds)
    (limit : Option Nat) : Logs t (loadFile (FileTree.disk limit) path)
      (fun filter => loadFile ((FileTree.disk limit).logged filter) path)
      [.loaded path kinds.length] (.ok kinds) t := by
  unfold loadFile
  refine (logs_read t limit path).bind ?_
  rw [h]
  exact (logs_log t limit _).bind (logs_pure t _)

end Description

theorem Settings.Config.logs_loadFile (t : FileTree) (limit : Option Nat) (path : String) :
    Logs t (loadFile (FileTree.disk limit) path)
      (fun filter => loadFile ((FileTree.disk limit).logged filter) path) []
      (ofReading (t.read path)) t :=
  (logs_read t limit path).map _

/-! ### Writing -/

namespace Definitions

/-- What is logged when a file was written with this result. -/
def writeEvents (kinds : Registry) (o : Settings.Output) :
    Except WriteFailure Unit × FileTree → List Log.Event
  | (.ok (), _) => [.written o.path kinds.length]
  | (.error (.uncreated _), _) => []
  | (.error (.unwritten _), t) =>
    if o.removeOnFailure then [removalEvent o.path (t.remove o.path).1] else []

/-- The tree when it is cleaned up after a file was written with this result. -/
def cleaned (o : Settings.Output) : Except WriteFailure Unit × FileTree → FileTree
  | (.error (.unwritten _), t) => if o.removeOnFailure then (t.remove o.path).2 else t
  | (_, t) => t

theorem logs_writeFile (t : FileTree) (limit : Option Nat) (kinds : Registry)
    (o : Settings.Output) : Logs t (writeFile (FileTree.disk limit) kinds o)
      (fun filter => writeFile ((FileTree.disk limit).logged filter) kinds o)
      (writeEvents kinds o (t.write limit o.path (blocks kinds)))
      (t.write limit o.path (blocks kinds)).1
      (cleaned o (t.write limit o.path (blocks kinds))) := by
  unfold writeFile
  refine (logs_write t limit o.path (blocks kinds)).bind ?_
  generalize t.write limit o.path (blocks kinds) = w
  obtain ⟨result, u⟩ := w
  match result with
  | .ok () => exact (logs_log u limit _).bind (logs_pure u _)
  | .error (.uncreated cause) => exact logs_pure u _
  | .error (.unwritten cause) =>
    cases h : o.removeOnFailure with
    | false =>
      simp only [cleaned, h]
      exact logs_pure u _
    | true =>
      simp only [cleaned, h]
      exact (logs_remove u limit o.path).bind ((logs_log _ limit _).bind (logs_pure _ _))

end Definitions

/-! ### Running -/

namespace Run

open CommandLine (Options)
open Settings (Config)

/-- What becomes of the configuration that is asked for. -/
def configured (t : FileTree) (o : Options) : Except Failure Config :=
  match o.config with
  | none => .ok .empty
  | some path => (Config.ofReading (t.read path)).mapError (.config path)

theorem logs_configure (t : FileTree) (limit : Option Nat) (o : Options) :
    Logs t (configure (FileTree.disk limit) o)
      (fun filter => configure ((FileTree.disk limit).logged filter) o) [] (configured t o) t := by
  unfold configure configured
  cases o.config with
  | none => exact logs_pure t _
  | some path => exact (Config.logs_loadFile t limit path).map _

variable {o : Options} {c : Config} {kinds : Registry} {words : List String}

theorem logs_perform_of_unconfigured {f : Failure} (hc : configured t o = .error f)
    (limit : Option Nat) : Logs t (perform (FileTree.disk limit) o)
      (fun filter => perform ((FileTree.disk limit).logged filter) o) [] (.error f) t := by
  unfold perform
  refine (logs_configure t limit o).bind ?_
  rw [hc]
  exact logs_pure t _

theorem logs_perform_of_unloaded {e : Description.LoadError} (hc : configured t o = .ok c)
    (he : Description.ofReading (t.read o.description) = .error e) (limit : Option Nat) :
    Logs t (perform (FileTree.disk limit) o)
      (fun filter => perform ((FileTree.disk limit).logged filter) o)
      [.begun o.description (effective c o).path] (.error (.load o.description e)) t := by
  unfold perform
  refine (logs_configure t limit o).bind ?_
  rw [hc]
  refine (logs_log t limit (.begun o.description (effective c o).path)).bind ?_
  exact (Description.logs_loadFile_of_error he limit).bind (logs_pure t _)

theorem logs_perform_of_loaded (hc : configured t o = .ok c)
    (hk : Description.ofReading (t.read o.description) = .ok kinds) (limit : Option Nat) :
    Logs t (perform (FileTree.disk limit) o)
      (fun filter => perform ((FileTree.disk limit).logged filter) o)
      (.begun o.description (effective c o).path :: .loaded o.description kinds.length ::
        Definitions.writeEvents kinds (effective c o)
          (t.write limit (effective c o).path (Definitions.blocks kinds)))
      ((t.write limit (effective c o).path (Definitions.blocks kinds)).1.mapError
        (.write (effective c o).path))
      (Definitions.cleaned (effective c o)
        (t.write limit (effective c o).path (Definitions.blocks kinds))) := by
  unfold perform
  refine (logs_configure t limit o).bind ?_
  rw [hc]
  refine (logs_log t limit (.begun o.description (effective c o).path)).bind ?_
  refine (Description.logs_loadFile_of_ok hk limit).bind ?_
  exact (Definitions.logs_writeFile t limit kinds (effective c o)).map _

/-- The log of a run stands before its report. -/
theorem run_of_logs {limit : Option Nat} {events : List Log.Event} {result : Except Failure Unit}
    {u : FileTree} (hw : CommandLine.read words = .ok o)
    (h : Logs t (perform (FileTree.disk limit) o)
      (fun filter => perform ((FileTree.disk limit).logged filter) o) events result u)
    (toml : String → String) (logging : Option String) :
    (run (FileTree.disk limit) toml logging words).run t =
      (.ofResult toml ((Log.Filter.ofSetting logging).render events) result, u) := by
  rw [run, hw]
  dsimp only
  rw [StateT.run_bind, h.logged, String.empty_append]
  rfl

end Run
end TreeKinds
