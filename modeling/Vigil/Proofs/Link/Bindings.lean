import Mathlib
import Vigil.Link.Channel

/-! What a channel is bound to after any calls that bind it, whether they succeeded or failed. -/
namespace Vigil.Link

/-- A call that binds a channel: to a host as it stands, or to the daemon of a record. -/
inductive Binding where
  | init (host : String) (port : UInt16)
  | initFrom (r : Record)
deriving DecidableEq

/-- The endpoint that a call asks for. -/
def Binding.text : Binding → String
  | init host port => "http://" ++ host ++ ":" ++ toString port.toNat
  | initFrom r => "http://" ++ r.effectiveHost ++ ":" ++ toString r.port.toNat

theorem Endpoint.text_of_ofText {text : String} {e : Endpoint} (h : ofText text = .ok e) :
    e.text = text := by
  unfold ofText at h
  split_ifs at h
  simp only [bind, Except.bind] at h
  split at h
  · cases h
  · split at h
    · cases h
    · cases h
      rfl

namespace Channel

def bind (c : Channel) : Binding → Channel × Except ChannelError Unit
  | .init host port => c.init host port
  | .initFrom r => c.initFrom r

/-- The channel after the calls. -/
def run (c : Channel) (calls : List Binding) : Channel :=
  calls.foldl (fun c b => (c.bind b).1) c

/-- The calls, each with what it answered. -/
def answers (c : Channel) : List Binding → List (Binding × Except ChannelError Unit)
  | [] => []
  | b :: calls => (b, (c.bind b).2) :: answers (c.bind b).1 calls

variable {c : Channel} {b : Binding}

/-- What a call answers does not depend on what the channel is bound to. -/
theorem bind_eq (c : Channel) (b : Binding) : c.bind b =
    match Endpoint.ofText b.text with
    | .ok e => (⟨some e⟩, .ok ())
    | .error fault => (c, .error (.invalidEndpoint b.text fault)) := by
  cases b <;> rfl

theorem bind_cases (c : Channel) (b : Binding) :
    (∃ e : Endpoint, e.text = b.text ∧ c.bind b = (⟨some e⟩, .ok ())) ∨
      ∃ fault, c.bind b = (c, .error (.invalidEndpoint b.text fault)) := by
  rw [bind_eq]
  cases h : Endpoint.ofText b.text with
  | ok e => exact .inl ⟨e, Endpoint.text_of_ofText h, rfl⟩
  | error fault => exact .inr ⟨fault, rfl⟩

theorem run_concat (c : Channel) (calls : List Binding) (b : Binding) :
    c.run (calls ++ [b]) = ((c.run calls).bind b).1 := by
  simp [run]

theorem answers_concat (c : Channel) (calls : List Binding) (b : Binding) :
    c.answers (calls ++ [b]) = c.answers calls ++ [(b, ((c.run calls).bind b).2)] := by
  induction calls generalizing c with
  | nil => rfl
  | cons b' calls ih => simp [answers, run, ih]

/-- The calls that succeeded. -/
def successes (calls : List Binding) : List Binding :=
  ((({} : Channel).answers calls).filter (·.2.isOk)).map (·.1)

/-- The channel is bound to what the last successful call, if there was one, asked for. -/
def BoundAs (c : Channel) : Option Binding → Prop
  | none => c.bound = none
  | some b => ∃ e : Endpoint, e.text = b.text ∧ c.bound = some e

theorem successes_concat (calls : List Binding) (b : Binding) : successes (calls ++ [b]) =
    successes calls ++ if (((({} : Channel).run calls).bind b).2).isOk then [b] else [] := by
  rw [successes, answers_concat, List.filter_append, List.map_append, ← successes]
  split_ifs with h
  · simp [h]
  · simp [h]

theorem boundAs_run (calls : List Binding) :
    (({} : Channel).run calls).BoundAs (successes calls).getLast? := by
  induction calls using List.reverseRecOn with
  | nil => rfl
  | append_singleton calls b ih =>
    rw [run_concat, successes_concat]
    obtain ⟨e, htext, hbind⟩ | ⟨fault, hbind⟩ := bind_cases (({} : Channel).run calls) b
    · rw [hbind]
      simpa [Except.isOk, Except.toBool] using ⟨e, htext, rfl⟩
    · rw [hbind]
      simpa [Except.isOk, Except.toBool] using ih

/-- After any calls the channel's endpoint is what the last successful one asked for, and it is what
every client speaks to; before there was one, there is no endpoint, and everything that needs one
fails as not initialised. The next call either binds the channel to its own endpoint or fails,
naming its own endpoint, and leaves the channel as it was. -/
theorem bound_as_last_success (calls : List Binding) :
    let c := ({} : Channel).run calls
    (match (successes calls).getLast? with
      | none => c.endpoint? = none ∧ c.get = .error .notInitialized ∧
          ∀ s, c.client s = .error .notInitialized
      | some b => c.endpoint? = some b.text ∧
          ∃ e : Endpoint, e.text = b.text ∧ c.get = .ok e ∧ ∀ s, c.client s = .ok ⟨s, e⟩) ∧
    ∀ b, match c.bind b with
      | (c', .ok ()) => c'.endpoint? = some b.text
      | (c', .error e) => c' = c ∧ ∃ fault, e = .invalidEndpoint b.text fault := by
  intro c
  have hbound : c.BoundAs (successes calls).getLast? := boundAs_run calls
  constructor
  · cases hlast : (successes calls).getLast? with
    | none =>
      rw [hlast] at hbound
      have hget : c.get = .error .notInitialized := by rw [get, hbound]
      refine ⟨?_, hget, fun s => ?_⟩
      · rw [endpoint?, hbound]
        rfl
      · rw [client, hget]
        rfl
    | some b =>
      rw [hlast] at hbound
      obtain ⟨e, htext, he⟩ := hbound
      have hget : c.get = .ok e := by rw [get, he]
      refine ⟨?_, e, htext, hget, fun s => ?_⟩
      · rw [endpoint?, he, Option.map_some, htext]
      · rw [client, hget]
        rfl
  · intro b
    obtain ⟨e, htext, hbind⟩ | ⟨fault, hbind⟩ := bind_cases c b
    · rw [hbind]
      exact congrArg some htext
    · rw [hbind]
      exact ⟨rfl, fault, rfl⟩

/-- Two calls that fail, one before and one after a record with blanks around its host. -/
theorem padded_host_bound :
    let calls : List Binding :=
      [.init "/" 0, .initFrom { host := " 127.0.0.1\n", port := 7000 }, .init "bad host" 7001]
    let c := ({} : Channel).run calls
    c.endpoint? = some "http://127.0.0.1:7000" ∧ (∃ e, c.client .agent = .ok ⟨.agent, e⟩) := by
  intro calls c
  obtain ⟨hlast, -⟩ := bound_as_last_success calls
  have hsuccesses : successes calls = [.initFrom { host := " 127.0.0.1\n", port := 7000 }] := by
    decide +kernel
  simp only [hsuccesses, List.getLast?_singleton] at hlast
  obtain ⟨hendpoint, e, -, -, hclient⟩ := hlast
  have htext : (Binding.initFrom { host := " 127.0.0.1\n", port := 7000 }).text =
      "http://127.0.0.1:7000" := by decide +kernel
  exact ⟨htext ▸ hendpoint, e, hclient .agent⟩

end Channel

end Vigil.Link
