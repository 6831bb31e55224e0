import Sisfila.Queue.Core

namespace Sisfila

variable {α β : Type}

/-! Statements run alone. -/

@[simp] theorem exec_le (l : Db → Evento) (q : Db → α) (s : World) :
    (le l q).exec s=⟨[l s.db],.ok (q s.db),s⟩ := rfl
@[simp] theorem exec_consulta (q : Db → α) (s : World) :
    (consulta q).exec s=⟨[.consulta],.ok (q s.db),s⟩ := rfl
@[simp] theorem exec_carrega (q : Db → α) (s : World) :
    (carrega q).exec s=⟨[.carrega],.ok (q s.db),s⟩ := rfl
@[simp] theorem exec_escreve (l : Db → Evento) (f : Db → Db) (s : World) :
    (escreve l f).exec s=⟨[l s.db],.ok (),{ s with db := f s.db }⟩ := rfl
@[simp] theorem exec_grava (f : Db → Db) (s : World) :
    (grava f).exec s=⟨[.grava],.ok (),{ s with db := f s.db }⟩ := rfl
@[simp] theorem exec_timeNow (s : World) :
    timeNow.exec s=⟨[.consulta],.ok (s.clock 0),{ s with clock := fun n => s.clock (n+1) }⟩ := rfl
@[simp] theorem exec_orRaise_some (e : Erro) (a : α) (s : World) :
    (orRaise e (some a)).exec s=⟨[],.ok a,s⟩ := rfl
@[simp] theorem exec_orRaise_none (e : Erro) (s : World) :
    (orRaise e (none : Option α)).exec s=⟨[],.error e,s⟩ := rfl

/-- Pointer moves, desk writes and enrolments: the events that change the core. -/
def Evento.marca : Evento → Bool
  | .incrementa _ _ => true
  | .associa _ _ => true
  | .cria _ _ (some _) => true
  | _ => false

namespace Outcome

/-- No exception. -/
def ok (o : Outcome Evento World Erro α) : Bool :=
  match o.result with
  | .ok _ => true
  | .error _ => false

def marcas (o : Outcome Evento World Erro α) : List Evento := o.log.filter Evento.marca

def core (o : Outcome Evento World Erro α) : Core := o.state.db.core

@[simp] theorem ok_mk (log : List Evento) (a : α) (s : World) :
    (⟨log,.ok a,s⟩ : Outcome Evento World Erro α).ok=true := rfl
@[simp] theorem ok_error (log : List Evento) (e : Erro) (s : World) :
    (⟨log,.error e,s⟩ : Outcome Evento World Erro α).ok=false := rfl
@[simp] theorem marcas_mk (log : List Evento) (r : Except Erro α) (s : World) :
    (⟨log,r,s⟩ : Outcome Evento World Erro α).marcas=log.filter Evento.marca := rfl
@[simp] theorem core_mk (log : List Evento) (r : Except Erro α) (s : World) :
    (⟨log,r,s⟩ : Outcome Evento World Erro α).core=s.db.core := rfl

@[simp] theorem andThen_ok (log : List Evento) (a : α) (s : World)
    (f : α → World → Outcome Evento World Erro β) :
    (⟨log,.ok a,s⟩ : Outcome Evento World Erro α).andThen f=
      ⟨log++(f a s).log,(f a s).result,(f a s).state⟩ := rfl
@[simp] theorem andThen_error (log : List Evento) (e : Erro) (s : World)
    (f : α → World → Outcome Evento World Erro β) :
    (⟨log,.error e,s⟩ : Outcome Evento World Erro α).andThen f=⟨log,.error e,s⟩ := rfl

@[simp] theorem eta (o : Outcome Evento World Erro α) :
    (⟨o.log,o.result,o.state⟩ : Outcome Evento World Erro α)=o := rfl

theorem ok_iff (o : Outcome Evento World Erro α) : o.ok=true ↔ ∃ a,o.result=.ok a := by
  unfold ok
  cases h : o.result <;> simp

end Outcome

theorem result_bind_ok {p : Req α} {f : α → Req β} {s : World} {b : β}
    (h : ((p >>= f).exec s).result=.ok b) : ∃ a,(p.exec s).result=.ok a ∧
      ((f a).exec (p.exec s).state).result=.ok b := by
  rw [Prog.exec_bind,Outcome.andThen] at h
  cases ha : (p.exec s).result with
  | ok a =>
    rw [ha] at h
    exact ⟨a,rfl,h⟩
  | error e =>
    rw [ha] at h
    cases h

/-- Reads, and writes the core does not show. -/
def Quieto (l : World → Evento) (w : World → World) : Prop :=
  (∀ s,(l s).marca=false) ∧ ∀ s,(w s).db.core=s.db.core

theorem every_le {l : Db → Evento} (hl : ∀ d,(l d).marca=false) (q : Db → α) :
    (le l q).Every Quieto := ⟨⟨fun s => hl s.db,fun _ => rfl⟩,fun _ => trivial⟩

theorem every_consulta (q : Db → α) : (consulta q).Every Quieto := every_le (fun _ => rfl) q

theorem every_grava {f : Db → Db} (hf : ∀ d,(f d).core=d.core) : (grava f).Every Quieto :=
  ⟨⟨fun _ => rfl,fun s => hf s.db⟩,fun _ => trivial⟩

theorem every_timeNow : timeNow.Every Quieto := ⟨⟨fun _ => rfl,fun _ => rfl⟩,fun _ => trivial⟩

theorem every_orRaise {S : (World → Evento) → (World → World) → Prop} (e : Erro) (o : Option α) :
    (orRaise e o).Every S := by
  cases o <;> trivial

/-- A quiet program leaves no mark and no trace in the core, whether it raises or not. -/
theorem quieto_exec {p : Req α} (hp : p.Every Quieto) (s : World) :
    (p.exec s).marcas=[] ∧ (p.exec s).core=s.db.core := by
  constructor
  · rw [Outcome.marcas,List.filter_eq_nil_iff]
    intro e he
    have h := hp.exec_log (fun e => e.marca=false) (fun l w h s => h.1 s) s e he
    simp [h]
  · exact hp.exec_rel (fun a b => b.db.core=a.db.core) (fun _ => rfl)
      (fun _ _ _ h k => k.trans h) (fun l w h s => h.2 s) s

/-- A kind of statement that covers reads, clock readings and those updates of the statistics of a
fila that `P` allows. -/
structure Leve (P : Option Nat → (Estatisticas → Estatisticas) → Prop)
    (S : (World → Evento) → (World → World) → Prop) : Prop where
  le : ∀ l : Db → Evento,(∀ d,(l d).marca=false) → S (fun s => l s.db) id
  relogio : S (fun _ => .consulta) (fun s => { s with clock := fun n => s.clock (n+1) })
  fila : ∀ i g,P i g → S (fun _ => .grava) (fun s => { s with db := s.db.updateFila i g })

/-- The same with all of them and with updates of the waiting times. -/
structure Estatistico (S : (World → Evento) → (World → World) → Prop) : Prop
    extends Leve (fun _ _ => True) S where
  espera : ∀ p (g : Chamada → Chamada),(∀ c,(g c).dataChamada=c.dataChamada) →
    S (fun _ => .grava) (fun s => { s with db := s.db.updateVagas p g })

theorem estatistico_quieto : Estatistico Quieto where
  le _ hl := ⟨fun s => hl s.db,fun _ => rfl⟩
  relogio := ⟨fun _ => rfl,fun _ => rfl⟩
  fila i g _ := ⟨fun _ => rfl,fun s => s.db.core_updateFila i g⟩
  espera p g _ := ⟨fun _ => rfl,fun s => s.db.core_updateVagas p g⟩

namespace Mesa

/-- What `registraChamada` does after the date of the call. -/
def registraEspera (vaga : Vaga) : Req Unit := do
  let (npat,nptt) ← contaPessoas vaga
  registraTempoNaFila vaga
  abreMedicao vaga npat nptt
  mede vaga npat nptt
  fechaMedicao vaga npat nptt
  calculaLambda vaga nptt
  calculaMi vaga
  calculaTempoMedio vaga

theorem registraChamada_eq (v : Vaga) :
    registraChamada v=(marcaChamada v >>= fun _ => registraEspera v) := rfl

/-- The date comes first and the desk last. -/
theorem associaVagaAMesa_marca (v : Vaga) (mesa : Option Nat) : associaVagaAMesa (some v) mesa=
    marcaChamada v >>= fun _ => registraEspera v >>= fun _ => ocupaMesa (some v) mesa := by
  change (registraChamada v >>= fun _ => ocupaMesa (some v) mesa)=_
  rw [registraChamada_eq,Prog.bind_bind]

section blocks

variable {P : Option Nat → (Estatisticas → Estatisticas) → Prop}
  {S : (World → Evento) → (World → World) → Prop} (hS : Leve P S)

include hS

private theorem every_read (q : Db → α) : (consulta q).Every S :=
  ⟨hS.le (fun _ => .consulta) (fun _ => rfl),fun _ => trivial⟩

private theorem every_clock : timeNow.Every S := ⟨hS.relogio,fun _ => trivial⟩

private theorem every_updateFila (i : Option Nat) {g : Estatisticas → Estatisticas} (hg : P i g) :
    (grava (fun d => d.updateFila i g)).Every S := ⟨hS.fila i g hg,fun _ => trivial⟩

private theorem every_ultimaVaga (f : Option Nat) : (ultimaVaga f).Every S :=
  (every_read hS _).bind (fun _ => every_orRaise _ _)

private theorem every_primeiraVaga (f : Option Nat) : (primeiraVaga f).Every S :=
  (every_read hS _).bind (fun _ => every_orRaise _ _)

private theorem every_leFila (f : Option Nat) : (leFila f).Every S :=
  (every_read hS _).bind (fun _ => every_orRaise _ _)

/-! Each block of a call, with the columns it writes. -/

theorem every_contaPessoas (v : Vaga) (ha : ∀ x,P v.filaId (fun e => { e with npaguardando := x }))
    (hp : ∀ x,P v.filaId (fun e => { e with npatendidas := x }))
    (ht : ∀ x,P v.filaId (fun e => { e with nptotal := x })) : (contaPessoas v).Every S := by
  refine (every_ultimaVaga hS _).bind (fun _ => (every_orRaise _ _).bind (fun _ =>
    (every_orRaise _ _).bind (fun _ => ?_)))
  refine (every_updateFila hS _ (ha _)).bind (fun _ => (every_updateFila hS _ (hp _)).bind
    (fun _ => (every_ultimaVaga hS _).bind (fun _ => ?_)))
  exact (every_updateFila hS _ (ht _)).bind (fun _ => trivial)

theorem every_abreMedicao (v : Vaga) (npat : Int) (nptt : Option Int)
    (hr : ∀ x,P v.filaId (fun e => { e with realizarcalculo := x }))
    (ht : ∀ x,P v.filaId (fun e => { e with tiatendimento := x })) :
    (abreMedicao v npat nptt).Every S := by
  unfold abreMedicao
  split_ifs
  · exact (every_updateFila hS _ (hr _)).bind (fun _ =>
      (every_clock hS).bind (fun _ => every_updateFila hS _ (ht _)))
  · trivial

theorem every_mede (v : Vaga) (npat : Int) (nptt : Option Int)
    (hf : ∀ x,P v.filaId (fun e => { e with tfatendimento := x }))
    (ht : ∀ x,P v.filaId (fun e => { e with tempoatendimento := x })) : (mede v npat nptt).Every S := by
  have hc : (calculaAtendimento v npat).Every S := by
    refine (every_clock hS).bind (fun _ => (every_updateFila hS _ (hf _)).bind (fun _ => ?_))
    refine (every_leFila hS _).bind (fun _ => (every_orRaise _ _).bind (fun _ => ?_))
    refine (every_leFila hS _).bind (fun _ => (every_orRaise _ _).bind (fun _ => ?_))
    exact every_updateFila hS _ (ht _)
  unfold mede
  split_ifs
  · refine (every_leFila hS _).bind (fun f => ?_)
    split_ifs
    · exact hc
    · trivial
  · trivial

theorem every_fechaMedicao (v : Vaga) (npat : Int) (nptt : Option Int)
    (hr : ∀ x,P v.filaId (fun e => { e with realizarcalculo := x })) :
    (fechaMedicao v npat nptt).Every S := by
  unfold fechaMedicao
  split_ifs
  · exact every_updateFila hS _ (hr _)
  · trivial

theorem every_calculaLambda (v : Vaga) (nptt : Option Int)
    (hl : ∀ x,P v.filaId (fun e => { e with lambda := x })) : (calculaLambda v nptt).Every S :=
  (every_ultimaVaga hS _).bind (fun _ => (every_primeiraVaga hS _).bind (fun _ =>
    (every_orRaise _ _).bind (fun _ => every_updateFila hS _ (hl _))))

theorem every_calculaMi (v : Vaga) (hm : ∀ x,P v.filaId (fun e => { e with mi := x })) :
    (calculaMi v).Every S :=
  (every_leFila hS _).bind (fun _ => (every_orRaise _ _).bind
    (fun _ => every_updateFila hS _ (hm _)))

omit hS in
private theorem every_somaTempos (todas : List Vaga) (n : Nat) :
    (somaTempos todas n).Every S := by
  unfold somaTempos
  generalize (0 : Int)=soma
  induction List.range n generalizing soma with
  | nil => trivial
  | cons a as ih =>
    rw [List.foldlM_cons]
    refine Prog.Every.bind ?_ (fun t => ih t)
    exact (every_orRaise _ _).bind (fun _ => (every_orRaise _ _).bind (fun _ => trivial))

theorem every_calculaTempoMedio (v : Vaga)
    (ht : ∀ x,P v.filaId (fun e => { e with tempomedioespera := x })) : (calculaTempoMedio v).Every S := by
  refine (every_read hS _).bind (fun _ => (every_read hS _).bind (fun _ =>
    (every_somaTempos _ _).bind (fun _ => (every_read hS _).bind (fun n => ?_))))
  split_ifs
  · trivial
  · exact every_updateFila hS _ (ht _)

theorem every_ocupaMesa (v : Option Vaga) (mesa : Option Nat)
    (hm : ∀ (m : Mesa) (t : ℚ),S (fun _ => .associa m.id (v.map (·.id)))
      (fun s => { s with db := s.db.ocupa m (v.map (·.id)) t })) : (ocupaMesa v mesa).Every S := by
  refine (every_read hS _).bind (fun o => ?_)
  cases o with
  | none => trivial
  | some m => exact (every_clock hS).bind (fun t => ⟨hm m t,fun _ => trivial⟩)

end blocks

/-- What follows the date of a call: these blocks and the update of the waiting time, wherever they
stop. -/
theorem every_registraEspera_of_leve {P : Option Nat → (Estatisticas → Estatisticas) → Prop}
    {S : (World → Evento) → (World → World) → Prop} (hS : Leve P S) {v : Vaga}
    (hP : ∀ g,P v.filaId g) (hv : (registraTempoNaFila v).Every S) :
    (registraEspera v).Every S := by
  refine (every_contaPessoas hS v (fun _ => hP _) (fun _ => hP _) (fun _ => hP _)).bind
    (fun x => hv.bind (fun _ => ?_))
  refine (every_abreMedicao hS v _ _ (fun _ => hP _) (fun _ => hP _)).bind (fun _ => ?_)
  refine (every_mede hS v _ _ (fun _ => hP _) (fun _ => hP _)).bind (fun _ => ?_)
  refine (every_fechaMedicao hS v _ _ (fun _ => hP _)).bind (fun _ => ?_)
  refine (every_calculaLambda hS v _ (fun _ => hP _)).bind (fun _ => ?_)
  exact (every_calculaMi hS v (fun _ => hP _)).bind
    (fun _ => every_calculaTempoMedio hS v (fun _ => hP _))

theorem every_registraEspera {S : (World → Evento) → (World → World) → Prop} (hS : Estatistico S)
    (v : Vaga) : (registraEspera v).Every S :=
  every_registraEspera_of_leve hS.toLeve (fun _ => trivial)
    ⟨hS.relogio,fun _ => ⟨hS.espera _ _ (fun _ => rfl),fun _ => trivial⟩⟩

/-- A call never touches the core before it looks at the desk. -/
theorem every_registraChamada (v : Vaga) : (registraChamada v).Every Quieto := by
  rw [registraChamada_eq]
  refine Prog.Every.bind ?_ (fun _ => every_registraEspera estatistico_quieto v)
  exact every_timeNow.bind (fun _ => every_grava (fun d => d.core_updateVagas _ _))

theorem every_registra (vaga : Option Vaga) : (registra vaga).Every Quieto := by
  cases vaga with
  | none => trivial
  | some v => exact every_registraChamada v

end Mesa

theorem every_notifica : notifica.Every Quieto := every_le (fun _ => rfl) _

theorem Aluno.every_procuraVaga (a : Aluno) (fs : List Fila) :
    (a.procuraVaga fs).Every Quieto := by
  induction fs with
  | nil => trivial
  | cons f fs ih =>
    refine (every_le (fun _ => rfl) _).bind (fun b => ?_)
    cases b with
    | false => exact ih
    | true => exact (every_consulta _).bind (fun _ => trivial)

theorem Aluno.every_proximaVaga (a : Aluno) : a.proximaVaga.Every Quieto :=
  (every_le (fun _ => rfl) _).bind (fun _ => (every_consulta _).bind (a.every_procuraVaga))

end Sisfila
