import Sisfila.Model.Importer
import Sisfila.Queue.Execution

namespace Sisfila

variable {α β γ : Type}

/-- What a block of writes makes of the tables: a new database, or none if it raises. -/
def WritesAt (p : Req α) (s : World) (o : Option Db) : Prop :=
  (p.exec s).ok=o.isSome ∧ ∀ d ∈ o,(p.exec s).state.db=d

def Writes (p : Req α) (q : Db → Option Db) : Prop := ∀ s : World,WritesAt p s (q s.db)

theorem WritesAt.bind_ok {p : Req α} {f : α → Req β} {s t : World} {log : List Evento} {a : α}
    {o : Option Db} (hp : p.exec s=⟨log,.ok a,t⟩) (hf : WritesAt (f a) t o) :
    WritesAt (p >>= f) s o := by
  unfold WritesAt
  rw [Prog.exec_bind,hp]
  exact hf

theorem WritesAt.bind_error {p : Req α} (f : α → Req β) {s : World} (hp : (p.exec s).ok=false) :
    WritesAt (p >>= f) s none := by
  unfold WritesAt
  rw [Prog.exec_bind]
  cases hr : (p.exec s).result with
  | ok a => simp [Outcome.ok,hr] at hp
  | error e => simp [Outcome.andThen,hr]

namespace Writes

theorem ret (a : α) : Writes (.ret a) some := by
  intro s
  refine ⟨rfl,?_⟩
  intro d hd
  exact Option.some.inj hd

theorem bind {p : Req α} {f : α → Req β} {q r : Db → Option Db} (hp : Writes p q)
    (hf : ∀ a,Writes (f a) r) : Writes (p >>= f) (fun d => (q d).bind r) := by
  intro s
  obtain ⟨hok,hdb⟩ := hp s
  dsimp only
  cases hq : q s.db with
  | none =>
    rw [hq] at hok
    exact WritesAt.bind_error f hok
  | some d =>
    rw [hq] at hok
    obtain ⟨a,ha⟩ := (Outcome.ok_iff _).mp hok
    have hf := hf a (p.exec s).state
    rw [hdb d hq] at hf
    have he : p.exec s=⟨(p.exec s).log,.ok a,(p.exec s).state⟩ := by rw [← ha]
    exact WritesAt.bind_ok he hf

/-- A loop whose body writes as `q` says, whatever it has printed so far. -/
theorem foldlM {f : β → γ → Req β} {q : Db → γ → Option Db}
    (hf : ∀ b a,Writes (f b a) (fun d => q d a)) (l : List γ) (b : β) :
    Writes (l.foldlM f b) (fun d => l.foldlM q d) := by
  induction l generalizing b with
  | nil => exact ret b
  | cons a l ih =>
    simp only [List.foldlM_cons]
    exact (hf b a).bind (fun b => ih b)

theorem transacao {p : Req α} {q : Db → Option Db} (hp : Writes p q) :
    Writes (transacao p) q := by
  intro s
  obtain ⟨hok,hdb⟩ := hp s
  unfold Sisfila.transacao WritesAt
  rw [Outcome.ok] at hok
  cases ha : (p.exec s).result with
  | error e =>
    rw [ha] at hok
    refine ⟨by simpa [ha,Outcome.ok] using hok,?_⟩
    intro d hd
    rw [Option.mem_def.mp hd] at hok
    cases hok
  | ok a =>
    rw [ha] at hok
    exact ⟨by simpa [ha,Outcome.ok] using hok,by simpa [ha] using hdb⟩

end Writes

/-- An exception takes back what the block wrote. -/
def Undoes (p : Req α) : Prop :=
  ∀ s : World,(p.exec s).ok=false → (p.exec s).state.db=s.db

theorem undoes_transacao (p : Req α) : Undoes (transacao p) := by
  intro s h
  unfold transacao at h ⊢
  cases ha : (p.exec s).result with
  | error e => simp [ha]
  | ok a => simp [ha,Outcome.ok] at h

theorem Undoes.map {p : Req α} (hp : Undoes p) (f : α → β) :
    Undoes (p >>= fun a => .ret (f a)) := by
  intro s h
  have hp := hp s
  rw [Prog.exec_bind] at h ⊢
  cases ha : (p.exec s).result with
  | ok a => simp [Outcome.andThen,Outcome.ok,ha] at h
  | error e => simpa [Outcome.andThen,Outcome.ok,ha] using hp

end Sisfila
