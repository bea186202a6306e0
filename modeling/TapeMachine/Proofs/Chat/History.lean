import TapeMachine.Proofs.Chat.Reply

/-!
What the command goes through between its setup and any later moment. Files come and go as others
like, the config is read again whenever someone asks for it, and messages come in between. Loads are
the setup and the reloads, each on the files as they are at its moment. The config in force is
always the one that the latest load gave that did not fail, so it is always a usable one.
-/

namespace TapeMachine.Chat

open Text

/-- What reading gives for each path at one moment. -/
abbrev Files := String → Except ReadError String

/-- What happens while the command is in use. -/
inductive Event where
  /-- Files are written, replaced or removed; from now on reading gives this. -/
  | filesChange (files : Files)
  | setPrefix (commandPrefix : String)
  | reload
  /-- The budget is asked for. -/
  | timeout
  | message (args : String) (origin : Origin)

namespace Files

def change (files : Files) : Event → Files
  | .filesChange files => files
  | _ => files

def after (files : Files) (events : List Event) : Files :=
  events.foldl change files

end Files

/-- The command at one moment, and the files around it. -/
structure Service where
  files : Files
  handler : Handler

namespace Service

def next (s : Service) : Event → Service
  | .filesChange files => { s with files := files }
  | .setPrefix commandPrefix => { s with handler := s.handler.withPrefix commandPrefix }
  | .reload =>
      match s.handler.reload s.files with
      | .ok handler => { s with handler := handler }
      | .error _ => s
  | .timeout => s
  | .message _ _ => s

def after (s : Service) (events : List Event) : Service :=
  events.foldl next s

/-- What a reload answers at this moment. -/
def reloads (s : Service) : Bool :=
  (s.handler.reload s.files).isOk

end Service

/-- A history is split at the latest load that did not fail. It is the setup, which comes before all
events, or a reload; it gave this config, and every reload after it fails on the files of its own
moment. -/
structure LastLoad (path : String) (files : Files) (earlier later : List Event)
    (config : Config) : Prop where
  here : earlier = [] ∨ earlier.getLast? = some .reload
  loaded : Config.ofFile path (files.after earlier path) = .ok config
  failed : ∀ mid rest, later = mid ++ .reload :: rest →
    ∃ e, Config.ofFile path (files.after (earlier ++ mid) path) = .error e

variable {path : String} {files : Files} {earlier later events : List Event} {config : Config}
  {s : Service}

namespace Files

theorem after_append (files : Files) (earlier later : List Event) :
    files.after (earlier ++ later) = (files.after earlier).after later :=
  List.foldl_append

end Files

namespace LastLoad

theorem start (hload : Config.ofFile path (files path) = .ok config) :
    LastLoad path files [] [] config where
  here := .inl rfl
  loaded := hload
  failed mid rest hsplit := by simp at hsplit

/-- One more event leaves the latest load where it is, if it is not a load that succeeds. -/
theorem snoc (h : LastLoad path files earlier later config) (event : Event)
    (hfails : event = .reload →
      ∃ e, Config.ofFile path (files.after (earlier ++ later) path) = .error e) :
    LastLoad path files earlier (later ++ [event]) config where
  here := h.here
  loaded := h.loaded
  failed mid rest hsplit := by
    rcases List.eq_nil_or_concat rest with rfl | ⟨rest, last, rfl⟩
    · obtain ⟨rfl, hlast⟩ := List.append_inj' hsplit rfl
      exact hfails (List.singleton_inj.mp hlast)
    · have hsame : later ++ [event] = (mid ++ .reload :: rest) ++ [last] := by
        simpa using hsplit
      exact h.failed mid rest (List.append_inj' hsame rfl).1

theorem reload (hload : Config.ofFile path (files.after events path) = .ok config) :
    LastLoad path files (events ++ [.reload]) [] config where
  here := .inr List.getLast?_concat
  loaded := by
    rw [Files.after_append]
    exact hload
  failed mid rest hsplit := by simp at hsplit

end LastLoad

theorem Handler.setup_eq_ok_iff {h : Handler} :
    Handler.setup files path = .ok h ↔
      ∃ config, Config.ofFile path (files path) = .ok config ∧
        h = { ofConfig config with path := some path } := by
  unfold setup
  cases Config.ofFile path (files path) <;> simp [Except.map, eq_comm]

namespace Service

theorem after_concat (s : Service) (events : List Event) (event : Event) :
    s.after (events ++ [event]) = (s.after events).next event := by
  simp [after]

theorem files_next (s : Service) (event : Event) : (s.next event).files = s.files.change event := by
  cases event with
  | reload => cases hreload : s.handler.reload s.files <;> simp [next, Files.change, hreload]
  | _ => rfl

theorem files_after (s : Service) (events : List Event) :
    (s.after events).files = s.files.after events := by
  induction events generalizing s with
  | nil => rfl
  | cons event rest ih =>
      have hrest : ((s.next event).after rest).files = (s.next event).files.after rest := ih _
      rw [files_next] at hrest
      exact hrest

/-- Only a reload changes the config. -/
theorem config_next_of_ne_reload {event : Event} (h : event ≠ .reload) :
    (s.next event).handler.config = s.handler.config := by
  cases event with
  | reload => exact absurd rfl h
  | _ => rfl

theorem next_reload_of_ok (hpath : s.handler.path = some path)
    (hload : Config.ofFile path (s.files path) = .ok config) :
    s.next .reload = { s with handler := { s.handler with config := config } } := by
  simp [next, Handler.reload, hpath, hload]

theorem next_reload_of_not_reloads (h : s.reloads = false) : s.next .reload = s := by
  unfold reloads at h
  cases hreload : s.handler.reload s.files with
  | ok handler => simp [hreload, Except.isOk, Except.toBool] at h
  | error e => simp [next, hreload]

theorem next_reload_of_error (hpath : s.handler.path = some path) {e : ConfigError}
    (hload : Config.ofFile path (s.files path) = .error e) : s.next .reload = s := by
  simp [next, Handler.reload, hpath, hload]

theorem reloads_iff (hpath : s.handler.path = some path) :
    s.reloads = true ↔ ∃ config, Config.ofFile path (s.files path) = .ok config := by
  cases hload : Config.ofFile path (s.files path) <;>
    simp [reloads, Handler.reload, hpath, hload, Except.isOk, Except.toBool]

theorem reloads_of_noFile (hpath : s.handler.path = none) : s.reloads = false := by
  simp [reloads, Handler.reload, hpath, Except.isOk, Except.toBool]

theorem path_next (s : Service) (event : Event) :
    (s.next event).handler.path = s.handler.path := by
  cases event with
  | reload =>
      cases hpath : s.handler.path with
      | none => rw [next_reload_of_not_reloads (reloads_of_noFile hpath), hpath]
      | some path =>
          cases hload : Config.ofFile path (s.files path) with
          | ok config => rw [next_reload_of_ok hpath hload, hpath]
          | error e => rw [next_reload_of_error hpath hload, hpath]
  | _ => rfl

theorem path_after (s : Service) (events : List Event) :
    (s.after events).handler.path = s.handler.path := by
  induction events generalizing s with
  | nil => rfl
  | cons event rest ih => exact (ih (s.next event)).trans (s.path_next event)

/-- A command without a file keeps its config. -/
theorem config_after_of_noFile (hpath : s.handler.path = none) (events : List Event) :
    (s.after events).handler.config = s.handler.config := by
  induction events generalizing s with
  | nil => rfl
  | cons event rest ih =>
      have hkeep : (s.next event).handler.config = s.handler.config := by
        by_cases hreload : event = .reload
        · rw [hreload, next_reload_of_not_reloads (reloads_of_noFile hpath)]
        · exact config_next_of_ne_reload hreload
      exact (ih ((s.path_next event).trans hpath)).trans hkeep

/-- By induction on the history from its end: an event is a load that succeeds, and then it is the
latest one, or it leaves the config and the latest load as they were. -/
theorem exists_lastLoad (hpath : s.handler.path = some path)
    (hload : Config.ofFile path (s.files path) = .ok s.handler.config) (events : List Event) :
    ∃ earlier later, events = earlier ++ later ∧
      LastLoad path s.files earlier later (s.after events).handler.config := by
  induction events using List.reverseRecOn with
  | nil => exact ⟨[], [], rfl, .start hload⟩
  | append_singleton events event ih =>
      obtain ⟨earlier, later, rfl, hlast⟩ := ih
      have hpath' : (s.after (earlier ++ later)).handler.path = some path :=
        (s.path_after _).trans hpath
      have hfiles := s.files_after (earlier ++ later)
      rw [after_concat]
      by_cases hreload : event = .reload
      · subst hreload
        cases hnow : Config.ofFile path (s.files.after (earlier ++ later) path) with
        | ok config =>
            rw [next_reload_of_ok hpath' (hfiles ▸ hnow)]
            exact ⟨_, [], (List.append_nil _).symm, .reload hnow⟩
        | error e =>
            rw [next_reload_of_error hpath' (hfiles ▸ hnow)]
            exact ⟨earlier, later ++ [.reload], List.append_assoc ..,
              hlast.snoc _ fun _ => ⟨e, hnow⟩⟩
      · rw [config_next_of_ne_reload hreload]
        exact ⟨earlier, later ++ [event], List.append_assoc .., hlast.snoc _ (absurd · hreload)⟩

end Service

theorem LastLoad.usable (h : LastLoad path files earlier later config) :
    config.limitError? = none :=
  Config.ofFile_usable h.loaded

/-- A command that is set up from a file works under the last config that was good. Whatever happens
to files, prefix and messages, the config in force is the one that the latest load gave that did not
fail. A reload succeeds exactly if the file gives a config at that moment, and one that fails
changes nothing at all; nothing but a reload changes the config. So the config is always in range,
and every message with a word in it is answered with the report of a run under it. A command that
is made from a config keeps that config for ever. -/
theorem config_is_last_good (σ : Type) [Clock σ] (files : Files) :
    (∀ path h, Handler.setup files path = .ok h → ∀ events,
      let s := Service.after ⟨files, h⟩ events
      s.handler.path = some path ∧
      (∃ earlier later, events = earlier ++ later ∧
        LastLoad path files earlier later s.handler.config) ∧
      (s.reloads = true ↔ ∃ config, Config.ofFile path (files.after events path) = .ok config) ∧
      (∀ config, Config.ofFile path (files.after events path) = .ok config →
        s.next .reload = { s with handler := { s.handler with config := config } }) ∧
      (s.reloads = false → s.next .reload = s) ∧
      (∀ event, event ≠ .reload → (s.next event).handler.config = s.handler.config) ∧
      1 ≤ s.handler.config.timeout.toNat ∧
      1 ≤ s.handler.config.maxLoopDepth.toNat ∧ s.handler.config.maxLoopDepth.toNat ≤ 4096 ∧
      ∀ args, (∃ c ∈ args.toList, isBlank c = false) → ∃ before word after,
        FirstWord args before word after ∧
          ∀ (clock : σ) origin, s.handler.AnswersRun clock args origin word) ∧
    ∀ config events,
      let s := Service.after ⟨files, .ofConfig config⟩ events
      s.handler.config = config ∧ s.reloads = false ∧ s.next .reload = s := by
  constructor
  · intro path h hsetup events s
    obtain ⟨config, hload, rfl⟩ := Handler.setup_eq_ok_iff.mp hsetup
    have hpath : s.handler.path = some path := Service.path_after _ events
    have hfiles : s.files = files.after events := Service.files_after _ events
    obtain ⟨earlier, later, hsplit, hlast⟩ :=
      Service.exists_lastLoad (s := ⟨files, { Handler.ofConfig config with path := some path }⟩)
        rfl hload events
    have husable : s.handler.config.limitError? = none := hlast.usable
    obtain ⟨htimeout, hpos, hle⟩ := Config.limitError?_eq_none_iff.mp husable
    refine ⟨hpath, ⟨earlier, later, hsplit, hlast⟩, ?_, ?_, Service.next_reload_of_not_reloads,
      fun _ => Service.config_next_of_ne_reload, ?_, hpos, hle, ?_⟩
    · rw [Service.reloads_iff hpath, hfiles]
    · exact fun config hnow => Service.next_reload_of_ok hpath (hfiles ▸ hnow)
    · exact Nat.pos_of_ne_zero fun hzero => htimeout (UInt64.toNat_inj.mp hzero)
    · intro args hplain
      obtain ⟨before, word, after, hword⟩ := exists_firstWord_of_not_blank hplain
      exact ⟨before, word, after, hword, fun _ _ => Handler.answersRun husable hword⟩
  · intro config events s
    have hpath : s.handler.path = none := Service.path_after _ events
    have hfails := Service.reloads_of_noFile hpath
    exact ⟨Service.config_after_of_noFile rfl events, hfails,
      Service.next_reload_of_not_reloads hfails⟩

/-- A file that is replaced, read again, broken and read again: the config stays the one of the
second load, and a message is run under it. -/
theorem config_is_last_good_after_broken_file :
    let files : Files := fun _ => .ok "timeout: 100\n"
    let h : Handler := ⟨⟨100, 16, none⟩, some "bf.yml", "."⟩
    let events : List Event := [
      .filesChange fun _ => .ok "timeout: 250\n", .reload, .message "+." (.direct "bob"),
      .filesChange fun _ => .ok "timeout: [\n", .reload]
    let s := Service.after ⟨files, h⟩ events
    Handler.setup files "bf.yml" = .ok h ∧ s.handler.config = ⟨250, 16, none⟩ ∧
      s.reloads = false ∧ s.next .reload = s ∧
      (∃ earlier later, events = earlier ++ later ∧
        LastLoad "bf.yml" files earlier later s.handler.config) ∧
      (∃ c ∈ "  ++  +++++".toList, isBlank c = false) ∧
      (∃ before word after, FirstWord "  ++  +++++" before word after ∧
        s.handler.AnswersRun SteppingClock.perMillisecond "  ++  +++++" (.direct "bob") word) ∧
      (Service.after ⟨files, .ofConfig (.ofTimeout 0)⟩ events).handler.config = .ofTimeout 0 := by
  intro files h events s
  obtain ⟨hfromFile, hfromConfig⟩ := config_is_last_good SteppingClock files
  have hload : Config.ofFile "bf.yml" (files "bf.yml") = .ok ⟨100, 16, none⟩ := by decide +kernel
  have hsetup : Handler.setup files "bf.yml" = .ok h :=
    Handler.setup_eq_ok_iff.mpr ⟨_, hload, rfl⟩
  obtain ⟨-, hlast, hreloads, -, hkeep, -, -, -, -, hanswers⟩ := hfromFile _ _ hsetup events
  have hconfig : s.handler.config = ⟨250, 16, none⟩ := by decide +kernel
  have hbroken : (Config.ofFile "bf.yml" (files.after events "bf.yml")).isOk = false := by
    decide +kernel
  have hfails : s.reloads = false := by
    rw [Bool.eq_false_iff, Ne, hreloads]
    rintro ⟨config, hnow⟩
    rw [hnow] at hbroken
    cases hbroken
  have hplain : ∃ c ∈ "  ++  +++++".toList, isBlank c = false := ⟨'+', by decide, rfl⟩
  obtain ⟨before, word, after, hword, hanswer⟩ := hanswers _ hplain
  exact ⟨hsetup, hconfig, hfails, hkeep hfails, hlast, hplain, ⟨before, word, after, hword,
    hanswer _ _⟩, (hfromConfig _ events).1⟩

end TapeMachine.Chat
