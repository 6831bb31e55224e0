import Sisfila.Queue.Execution

namespace Sisfila

namespace Core

/-- A call by `chama_proximo`: the pointer moves first, the desk is written last. An exception
in between keeps the move; a desk that does not exist is skipped. -/
inductive Chama (k : Core) (f : FilaBase) (n : Int) (mesa : Option Nat) :
    Bool → List Evento → Core → Prop
  | falha : Chama k f n mesa false [.incrementa f.id (f.posicao+n)] (k.incrementa f.id n)
  | semMesa (h : mesa.bind k.mesas.find=none) :
      Chama k f n mesa true [.incrementa f.id (f.posicao+n)] (k.incrementa f.id n)
  | feita (m : Mesa) (t : ℚ) (h : mesa.bind k.mesas.find=some m) :
      Chama k f n mesa true
        [.incrementa f.id (f.posicao+n),
          .associa m.id ((k.vagaEm f.id (f.posicao+n)).map (fun v => v.id))]
        ((k.incrementa f.id n).ocupa m ((k.vagaEm f.id (f.posicao+n)).map (fun v => v.id)) t)

/-- `associa_vaga_a_mesa(nil, ...)` -/
inductive Esvazia (k : Core) (mesa : Option Nat) : List Evento → Core → Prop
  | nada : Esvazia k mesa [] k
  | feita (m : Mesa) (t : ℚ) (h : mesa.bind k.mesas.find=some m) :
      Esvazia k mesa [.associa m.id none] (k.ocupa m none t)

/-- Everything a request can do to the core: whether it completes, what it marks and what it
leaves. -/
inductive Passo (k : Core) : Requisicao → Bool → List Evento → Core → Prop
  | recusa (r : Requisicao) : Passo k r false [] k
  | naoInscreve (s : Sessao) (m : Option String) : Passo k (.inscrever s m) true [] k
  | inscreve (s : Sessao) (m : Option String) (a : Aluno) (g : Grupo) (f : FilaBase) (t : ℚ)
      (ha : a ∈ k.alunos.rows) (hm : a.matricula=m)
      (hg : a.primeiroGrupo k.grupos k.alunosGrupos=some g) (hgf : g.filaId=some f.id)
      (hf : k.filas.find f.id=some f) (hv : k.proximaVaga a=none) :
      Passo k (.inscrever s m) true [.cria a.id (some f.id) (some k.vagas.next)]
        (k.insereVaga a.id f.id (k.maiorPosicao f.id) t)
  | filasFim (s : Sessao) (f : FilaBase) {es : List Evento} {k' : Core}
      (hf : k.filas.find f.id=some f) (hn : f.posicao=(k.vagasDe f.id).length)
      (he : k.Esvazia s.mesa es k') : Passo k (.filasProximo s f.id) true es k'
  | filasProximo (s : Sessao) (f : FilaBase) {ok : Bool} {es : List Evento} {k' : Core}
      (hf : k.filas.find f.id=some f) (hn : f.posicao≠(k.vagasDe f.id).length)
      (hc : k.Chama f 1 s.mesa ok es k') : Passo k (.filasProximo s f.id) ok es k'
  | filasAnterior (s : Sessao) (f : FilaBase) {ok : Bool} {es : List Evento} {k' : Core}
      (hf : k.filas.find f.id=some f) (hc : k.Chama f (-1) s.mesa ok es k') :
      Passo k (.filasAnterior s f.id) ok es k'
  | edita (s : Sessao) (i : Nat) (b : Option Bool) : Passo k (.filasUpdateAtivo s i b) true [] k
  | ativa (s : Sessao) (i : Nat) (b : Option Bool) :
      Passo k (.filasUpdateAtivo s i b) true [] (k.ativaFila i b)
  | semMesa (s : Sessao) (c : Nat) (hm : s.mesa.bind k.mesas.find=none) :
      Passo k (.colegiadosProximo s c) true [] k
  | colegiadosFim (s : Sessao) (c : Nat) (m : Mesa) {es : List Evento} {k' : Core}
      (hm : s.mesa.bind k.mesas.find=some m) (hf : k.proximaFila c=none)
      (he : k.Esvazia s.mesa es k') : Passo k (.colegiadosProximo s c) true es k'
  | colegiadosProximo (s : Sessao) (c : Nat) (m : Mesa) (f : FilaBase) {ok : Bool}
      {es : List Evento} {k' : Core}
      (hm : s.mesa.bind k.mesas.find=some m) (hf : k.proximaFila c=some f)
      (hc : k.Chama f 1 s.mesa ok es k') : Passo k (.colegiadosProximo s c) ok es k'

end Core

/-- `p` only reads: it answers `r` and leaves no mark. -/
def Reads {α : Type} (p : Req α) (r : Db → Except Erro α) : Prop :=
  ∀ s,∃ log,p.exec s=⟨log,r s.db,s⟩ ∧ log.filter Evento.marca=[]

namespace Reads

variable {α β : Type}

theorem le {l : Db → Evento} (hl : ∀ d,(l d).marca=false) (q : Db → α) :
    Reads (Sisfila.le l q) (fun d => .ok (q d)) :=
  fun s => ⟨[l s.db],rfl,by simp [hl]⟩

theorem consulta (q : Db → α) : Reads (Sisfila.consulta q) (fun d => .ok (q d)) :=
  le (fun _ => rfl) q

theorem ret (a : α) : Reads (.ret a) (fun _ => .ok a) := fun _ => ⟨[],rfl,rfl⟩

theorem orRaise (e : Erro) (o : Option α) :
    Reads (Sisfila.orRaise e o) (fun _ => match o with | some a => .ok a | none => .error e) := by
  cases o <;> exact fun _ => ⟨[],rfl,rfl⟩

theorem bind {p : Req α} {f : α → Req β} {r : Db → Except Erro α}
    {q : α → Db → Except Erro β} (hp : Reads p r) (hf : ∀ a,Reads (f a) (q a)) :
    Reads (p >>= f) (fun d => (r d).bind (fun a => q a d)) := by
  intro s
  obtain ⟨log,he,hl⟩ := hp s
  rw [Prog.exec_bind,he]
  cases hr : r s.db with
  | error e => exact ⟨log,by simp [hr,Except.bind],hl⟩
  | ok a =>
    obtain ⟨log',he',hl'⟩ := hf a s
    exact ⟨log++log',by simp [hr,he',Except.bind],by simp [hl,hl']⟩

theorem congr {p : Req α} {r q : Db → Except Erro α} (hp : Reads p r) (h : ∀ d,r d=q d) :
    Reads p q := by
  intro s
  rw [← h]
  exact hp s

end Reads

theorem reads_primeiraNaoVazia (fs : List Fila) :
    Reads (Colegiado.primeiraNaoVazia fs)
      (fun d => .ok (fs.find? (fun f => decide (f.posicao<(d.contaVagas f.id : Int))))) := by
  induction fs with
  | nil => exact Reads.ret none
  | cons f fs ih =>
    have h : ∀ n : Nat,Reads (if f.posicao<n then pure (some f) else Colegiado.primeiraNaoVazia fs)
        (fun d => if f.posicao<n then .ok (some f)
          else .ok (fs.find? (fun f => decide (f.posicao<(d.contaVagas f.id : Int))))) := by
      intro n
      split_ifs
      · exact Reads.ret _
      · exact ih
    refine ((Reads.le (fun _ => rfl) (fun d => d.contaVagas f.id)).bind h).congr ?_
    intro d
    by_cases hf : f.posicao<(d.contaVagas f.id : Int) <;> simp [Except.bind,hf]

theorem reads_proximaFilaNaoVazia (c : Nat) :
    Reads (Colegiado.proximaFilaNaoVazia c) (fun d => .ok ((Colegiado.filasDe c d).find?
      (fun f => decide (f.posicao<(d.contaVagas f.id : Int))))) :=
  (Reads.le (fun _ => rfl) (Colegiado.filasDe c)).bind reads_primeiraNaoVazia

/-- The pure search behind `Aluno#proxima_vaga`. -/
def Aluno.acha (a : Aluno) (fs : List Fila) (d : Db) : Option (Vaga × Fila) :=
  fs.findSome? (fun f => (a.vagasAPartir f d).head?.map (fun v => (v,f)))

theorem reads_procuraVaga (a : Aluno) (fs : List Fila) :
    Reads (a.procuraVaga fs) (fun d => .ok (a.acha fs d)) := by
  induction fs with
  | nil => exact Reads.ret none
  | cons f fs ih =>
    have h : ∀ b : Bool,Reads (if b then (do
          let v ← consulta (fun d => (a.vagasAPartir f d).head?)
          pure (v.map (fun v => (v,f)))) else a.procuraVaga fs)
        (fun d => if b then .ok ((a.vagasAPartir f d).head?.map (fun v => (v,f)))
          else .ok (a.acha fs d)) := by
      intro b
      split_ifs
      · exact (Reads.le (fun _ => rfl) _).bind (fun v => Reads.ret _)
      · exact ih
    refine ((Reads.le (fun _ => rfl) (fun d => !(a.vagasAPartir f d).isEmpty)).bind h).congr ?_
    intro d
    cases hv : a.vagasAPartir f d <;> simp [Except.bind,Aluno.acha,hv]

theorem reads_proximaVaga (a : Aluno) :
    Reads a.proximaVaga (fun d =>
      .ok (a.acha (Aluno.filasAtivas (d.colegiadoDe a.colegiadoId) d) d)) := by
  refine ((Reads.le (fun _ => rfl) (fun d => d.colegiadoDe a.colegiadoId)).bind (fun c =>
    (Reads.le (fun _ => rfl) (Aluno.filasAtivas c)).bind (reads_procuraVaga a))).congr ?_
  intro d
  rfl

/-- What an observer of the core sees of a run. -/
def Visto {α : Type} (P : Bool → List Evento → Core → Prop) (p : Req α) (s : World) : Prop :=
  P (p.exec s).ok (p.exec s).marcas (p.exec s).core

namespace Visto

variable {α β : Type} {P : Bool → List Evento → Core → Prop} {s : World}

theorem quieto {p : Req α} (hp : p.Every Quieto) (h : ∀ ok,P ok [] s.db.core) : Visto P p s := by
  obtain ⟨hm,hc⟩ := quieto_exec hp s
  rw [Visto,hm,hc]
  exact h _

/-- After a quiet part that completes, the rest decides. -/
theorem quieto_bind {p : Req α} {f : α → Req β} (hp : p.Every Quieto)
    (he : P false [] s.db.core) (hf : ∀ a t,t.db.core=s.db.core → Visto P (f a) t) :
    Visto P (p >>= f) s := by
  obtain ⟨hm,hc⟩ := quieto_exec hp s
  unfold Visto
  rw [Prog.exec_bind]
  generalize p.exec s=o at hm hc
  obtain ⟨log,r,t⟩ := o
  simp only [Outcome.marcas_mk,Outcome.core_mk] at hm hc
  cases r with
  | error e => simpa [hm,hc] using he
  | ok a => simpa [Visto,Outcome.ok,Outcome.marcas,Outcome.core,hm] using hf a t hc

theorem reads_bind {p : Req α} {f : α → Req β} {r : Db → Except Erro α} (hp : Reads p r)
    (he : P false [] s.db.core) (hf : ∀ a,r s.db=.ok a → Visto P (f a) s) :
    Visto P (p >>= f) s := by
  obtain ⟨log,hx,hl⟩ := hp s
  unfold Visto
  rw [Prog.exec_bind,hx]
  cases hr : r s.db with
  | error e => simpa [hl] using he
  | ok a => simpa [Visto,Outcome.ok,Outcome.marcas,Outcome.core,hl] using hf a hr

theorem consulta_bind {q : Db → α} {f : α → Req β} (hf : Visto P (f (q s.db)) s) :
    Visto P (consulta q >>= f) s := hf

theorem carrega_bind {q : Db → α} {f : α → Req β} (hf : Visto P (f (q s.db)) s) :
    Visto P (carrega q >>= f) s := hf

theorem orRaise_bind {e : Erro} {o : Option α} {f : α → Req β} (he : P false [] s.db.core)
    (hf : ∀ a,o=some a → Visto P (f a) s) : Visto P (orRaise e o >>= f) s := by
  cases o with
  | none => exact he
  | some a => exact hf a rfl

theorem authorize_bind {sessao : Sessao} {f : Unit → Req β} (he : P false [] s.db.core)
    (hf : Visto P (f ()) s) : Visto P (authorize sessao >>= f) s := by
  unfold authorize
  split_ifs
  · exact hf
  · exact he

/-- A write that is marked comes first among the marks. -/
theorem escreve_bind {l : Db → Evento} {w : Db → Db} {f : Unit → Req β}
    (hl : (l s.db).marca=true)
    (hf : Visto (fun ok es k => P ok (l s.db::es) k) (f ()) { s with db := w s.db }) :
    Visto P (escreve l w >>= f) s := by
  unfold Visto at *
  rw [Prog.exec_bind]
  simpa [Outcome.ok,Outcome.marcas,Outcome.core,hl] using hf

/-- A last part that only reads adds nothing. -/
theorem bind_reads {p : Req α} {f : α → Req β} (hp : Visto P p s)
    (hf : ∀ a,∃ b,Reads (f a) (fun _ => .ok b)) : Visto P (p >>= f) s := by
  unfold Visto at *
  rw [Prog.exec_bind]
  generalize p.exec s=o at hp
  obtain ⟨log,r,t⟩ := o
  cases r with
  | error e => simpa using hp
  | ok a =>
    obtain ⟨b,hb⟩ := hf a
    obtain ⟨log',hx,hl⟩ := hb t
    simpa [hx,hl,Outcome.ok,Outcome.marcas,Outcome.core] using hp

end Visto

theorem reads_notifica_pure {α : Type} (a : α) :
    Reads (notifica >>= fun _ => pure a) (fun _ => .ok a) :=
  (Reads.le (fun _ => rfl) _).bind (fun _ => Reads.ret a)

theorem reads_notifica : Reads notifica (fun _ => .ok ()) := Reads.le (fun _ => rfl) _

theorem acha_core (a : Aluno) (d : Db) :
    (a.acha (Aluno.filasAtivas (d.colegiadoDe a.colegiadoId) d) d).map
      (fun x => (x.1.toVagaBase,x.2.toFilaBase))=d.core.proximaVaga a :=
  (d.proximaVaga_core a).symm

/-! What the programs do to the core. -/

theorem visto_ocupaMesa (vaga : Option Vaga) (mesa : Option Nat) (s : World)
    {P : Bool → List Evento → Core → Prop}
    (hn : mesa.bind s.db.core.mesas.find=none → P true [] s.db.core)
    (hs : ∀ (m : Mesa) (t : ℚ),mesa.bind s.db.core.mesas.find=some m →
      P true [.associa m.id (vaga.map (fun v => v.id))]
        (s.db.core.ocupa m (vaga.map (fun v => v.id)) t)) :
    Visto P (Mesa.ocupaMesa vaga mesa) s := by
  refine Visto.consulta_bind ?_
  cases hm : mesa.bind s.db.mesas.find with
  | none => exact hn hm
  | some m => exact hs m (s.clock 0) hm

theorem visto_chamaProximo (f : Fila) (n : Int) (mesa : Option Nat) (s : World)
    (hf : s.db.filas.find f.id=some f) :
    Visto (s.db.core.Chama f.toFilaBase n mesa) (f.chamaProximo mesa n) s := by
  refine Visto.escreve_bind rfl (Visto.consulta_bind ?_)
  simp only [hf,Option.map_some,Option.getD_some]
  have hv := s.db.vagaEm_core f.id (f.posicao+n)
  set v := (s.db.vagasDe (some f.id)).find? (fun v => v.posicao==some (f.posicao+n)) with hvd
  have hid : v.map (fun v => v.id)=
      (s.db.core.vagaEm f.id (f.posicao+n)).map (fun v => v.id) := by
    rw [hv,Option.map_map]
    rfl
  refine Visto.quieto_bind (Mesa.every_registra v) ?_ ?_
  · simpa using Core.Chama.falha
  · intro _ t ht
    simp only [Db.core_incrementa] at ht
    have hm : t.db.core.mesas=s.db.core.mesas := by rw [ht]; rfl
    refine visto_ocupaMesa v mesa t (fun hn => ?_) (fun m r hm' => ?_)
    · rw [ht]
      exact Core.Chama.semMesa (hm ▸ hn)
    · rw [ht,hid]
      exact Core.Chama.feita m r (hm ▸ hm')

theorem visto_esvazia (mesa : Option Nat) (s : World) :
    Visto (fun ok es k => ok=true ∧ s.db.core.Esvazia mesa es k)
      (Mesa.associaVagaAMesa none mesa) s :=
  visto_ocupaMesa none mesa s (fun _ => ⟨rfl,.nada⟩) (fun m t hm => ⟨rfl,.feita m t hm⟩)

theorem Visto.mono {α : Type} {P P' : Bool → List Evento → Core → Prop} {p : Req α} {s : World}
    (h : Visto P p s) (hP : ∀ ok es k,P ok es k → P' ok es k) : Visto P' p s := hP _ _ _ h

section requests

variable {s : World} {β : Type} {P : Bool → List Evento → Core → Prop}

private theorem visto_setFila {i : Nat} {g : Fila → Req β} (he : P false [] s.db.core)
    (hf : ∀ f,f.id=i → s.db.filas.find f.id=some f → Visto P (g f) s) :
    Visto P (FilasController.setFila i >>= g) s := by
  unfold FilasController.setFila
  rw [Prog.bind_bind]
  refine Visto.carrega_bind (Visto.orRaise_bind he (fun f hfi => ?_))
  have hi := Table.key_of_find hfi
  exact hf f hi (by rw [← hi] at hfi; exact hfi)

private theorem find_core {f : Fila} (hf : s.db.filas.find f.id=some f) :
    s.db.core.filas.find f.id=some f.toFilaBase := by
  rw [Db.findFila_core,hf]
  rfl

theorem visto_filasProximo (u : Sessao) (i : Nat) (s : World) :
    Visto (s.db.core.Passo (.filasProximo u i)) (FilasController.proximo u i) s := by
  refine visto_setFila (.recusa _) ?_
  rintro f rfl hf
  refine Visto.authorize_bind (.recusa _) (Visto.consulta_bind ?_)
  refine Visto.bind_reads ?_ (fun _ => ⟨_,reads_notifica_pure _⟩)
  unfold FilasController.chama
  rw [Db.contaVagas_core]
  split_ifs with hn
  · refine (visto_esvazia u.mesa s).mono ?_
    rintro _ es k ⟨rfl,he⟩
    exact .filasFim u f.toFilaBase (find_core hf) hn he
  · exact (visto_chamaProximo f 1 u.mesa s hf).mono
      (fun _ _ _ hc => .filasProximo u f.toFilaBase (find_core hf) hn hc)

theorem visto_filasAnterior (u : Sessao) (i : Nat) (s : World) :
    Visto (s.db.core.Passo (.filasAnterior u i)) (FilasController.anterior u i) s := by
  refine visto_setFila (.recusa _) ?_
  rintro f rfl hf
  refine Visto.authorize_bind (.recusa _) ?_
  refine Visto.bind_reads ?_ (fun _ => ⟨_,reads_notifica_pure _⟩)
  exact (visto_chamaProximo f (-1) u.mesa s hf).mono
    (fun _ _ _ hc => .filasAnterior u f.toFilaBase (find_core hf) hc)

theorem visto_filasUpdateAtivo (u : Sessao) (i : Nat) (b : Option Bool) (s : World) :
    Visto (s.db.core.Passo (.filasUpdateAtivo u i b)) (FilasController.update u i { ativo := some b }) s := by
  refine visto_setFila (.recusa _) ?_
  rintro f rfl hf
  refine Visto.authorize_bind (.recusa _) (Visto.consulta_bind ?_)
  split_ifs
  · have h := Core.Passo.ativa (k := s.db.core) u f.id b
    rw [← Db.core_atualizaAtivo] at h
    exact h
  · exact .edita u f.id b

private theorem visto_colegiadosEsvazia {u : Sessao} {c : Nat} {m : Mesa}
    (hm : u.mesa.bind s.db.mesas.find=some m) (hf : s.db.core.proximaFila c=none) :
    Visto (s.db.core.Passo (.colegiadosProximo u c)) (ColegiadosController.esvazia m u) s := by
  refine Visto.consulta_bind ?_
  split
  · exact .colegiadosFim u c m hm hf .nada
  · refine Visto.bind_reads ?_ (fun _ => ⟨_,reads_notifica⟩)
    refine (visto_esvazia u.mesa s).mono ?_
    rintro _ es k ⟨rfl,he⟩
    exact .colegiadosFim u c m hm hf he

theorem visto_colegiadosProximo (u : Sessao) (c : Nat) (s : World) :
    Visto (s.db.core.Passo (.colegiadosProximo u c)) (ColegiadosController.proximo u c) s := by
  unfold ColegiadosController.proximo ColegiadosController.setColegiado
  rw [Prog.bind_bind]
  refine Visto.consulta_bind (Visto.orRaise_bind (.recusa _) (fun g hg => ?_))
  obtain rfl : g.id=c := Table.key_of_find hg
  refine Visto.authorize_bind (.recusa _) (Visto.consulta_bind ?_)
  cases hm : u.mesa.bind s.db.mesas.find with
  | none => exact .semMesa u g.id hm
  | some m =>
    refine Visto.reads_bind (reads_proximaFilaNaoVazia g.id) (.recusa _) (fun f hf => ?_)
    refine Visto.bind_reads ?_ (fun _ => ⟨_,Reads.ret _⟩)
    simp only [Except.ok.injEq] at hf
    have hp := s.db.proximaFila_core g.id
    rw [hf] at hp
    cases f with
    | none => exact visto_colegiadosEsvazia hm hp
    | some f =>
      refine Visto.consulta_bind ?_
      have hlt := List.find?_some hf
      have hfm := List.mem_of_find?_eq_some hf
      simp only [decide_eq_true_eq] at hlt
      rw [if_neg (ne_of_lt hlt)]
      refine Visto.bind_reads ?_ (fun _ => ⟨_,reads_notifica⟩)
      have hff : s.db.filas.find f.id=some f := by
        refine (Table.find_eq_some_iff _ _ _).mpr ⟨?_,rfl⟩
        exact List.mem_of_mem_filter ((mem_orderBy _ _ _).mp hfm)
      exact (visto_chamaProximo f 1 u.mesa s hff).mono
        (fun _ _ _ hc => .colegiadosProximo u g.id m f.toFilaBase hm hp hc)

private theorem every_jaNaFila (v : Vaga) (f : Fila) :
    (TelaController.jaNaFila v f).Every Quieto := by
  unfold TelaController.jaNaFila
  split_ifs
  · trivial
  · refine (every_orRaise _ _).bind (fun p => (every_orRaise _ _).bind (fun t => ?_))
    split <;> trivial

private theorem visto_create {u : Sessao} {m : Option String} {a : Aluno} {g : Grupo}
    (ha : a ∈ s.db.alunos.rows) (hm : a.matricula=m)
    (hg : a.primeiroGrupo s.db.grupos s.db.alunosGrupos=some g)
    (hv : s.db.core.proximaVaga a=none) :
    Visto (s.db.core.Passo (.inscrever u m)) (Vaga.create a g.filaId) s := by
  refine Visto.consulta_bind ?_
  cases hf : s.db.filaDe g.filaId with
  | none => exact .naoInscreve u m
  | some f =>
    obtain ⟨i,hi,hfi⟩ := Option.bind_eq_some_iff.mp hf
    obtain rfl : f.id=i := Table.key_of_find hfi
    have h := Core.Passo.inscreve (k := s.db.core) u m a g f.toFilaBase (s.clock 0) ha hm hg hi
      (find_core hfi) hv
    rw [Db.maiorPosicao_core,← Db.core_insereVaga] at h
    exact h

private theorem visto_inscreveMatricula (u : Sessao) (m : Option String) (s : World) :
    Visto (s.db.core.Passo (.inscrever u m)) (TelaController.inscreveMatricula m) s := by
  refine Visto.consulta_bind ?_
  cases ha : s.db.alunos.rows.find? (fun a => a.matricula==m) with
  | none => exact .naoInscreve u m
  | some a =>
    have hm : a.matricula=m := by simpa using List.find?_some ha
    simp only
    split_ifs
    · exact .naoInscreve u m
    · refine Visto.consulta_bind ?_
      split_ifs
      · exact .naoInscreve u m
      · refine Visto.consulta_bind ?_
        cases hg : a.primeiroGrupo s.db.grupos s.db.alunosGrupos with
        | none => exact .naoInscreve u m
        | some g =>
          refine Visto.reads_bind (reads_proximaVaga a) (.recusa _) (fun x hx => ?_)
          simp only [Except.ok.injEq] at hx
          have hp := acha_core a s.db
          rw [hx] at hp
          cases x with
          | some y =>
            refine Visto.quieto (every_jaNaFila y.1 y.2) (fun ok => ?_)
            cases ok
            · exact .recusa _
            · exact .naoInscreve u m
          | none =>
            exact Visto.bind_reads (visto_create (List.mem_of_find?_eq_some ha) hm hg hp.symm)
              (fun _ => ⟨_,Reads.ret _⟩)

theorem visto_inscrever (u : Sessao) (m : Option String) (s : World) :
    Visto (s.db.core.Passo (.inscrever u m)) (TelaController.inscrever u m) s := by
  refine Visto.consulta_bind (Visto.orRaise_bind (.recusa _) (fun r _ => ?_))
  split_ifs
  · exact visto_inscreveMatricula u m s
  · exact .naoInscreve u m
  · exact visto_inscreveMatricula u m s
  · exact .naoInscreve u m

end requests

/-- Whatever a request does shows in the core as one of the listed steps. -/
theorem Requisicao.passo (r : Requisicao) (s : World) :
    s.db.core.Passo r (r.prog.exec s).ok (r.prog.exec s).marcas (r.prog.exec s).core := by
  cases r with
  | inscrever u m => exact visto_inscrever u m s
  | filasProximo u i => exact visto_filasProximo u i s
  | filasAnterior u i => exact visto_filasAnterior u i s
  | filasUpdateAtivo u i b => exact visto_filasUpdateAtivo u i b s
  | colegiadosProximo u c => exact visto_colegiadosProximo u c s

end Sisfila
