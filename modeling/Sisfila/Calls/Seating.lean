import Sisfila.Model.Routes
import Sisfila.Queue.Run

namespace Sisfila

namespace Core

variable {k k' : Core}

/-- A request that moves the pointer of fila `i` forward is a call of that fila. -/
theorem Passo.chama_of_lt {r : Requisicao} {es : List Evento} {i : Nat} {f f' : FilaBase}
    (h : k.Passo r true es k') (hr : r.acao=.filasProximo ∨ r.acao=.colegiadosProximo)
    (hf : k.filas.find i=some f) (hf' : k'.filas.find i=some f') (hlt : f.posicao<f'.posicao) :
    k.Chama f 1 r.sessao.mesa true es k' ∧
      (r.acao=.colegiadosProximo → (r.sessao.mesa.bind k.mesas.find).isSome=true) := by
  have hsame : k'.filas≠k.filas := by
    intro hk
    rw [hk,hf] at hf'
    obtain rfl := Option.some.inj hf'
    exact lt_irrefl _ hlt
  -- a call moves the pointer of its own fila only
  have hown : ∀ (g : FilaBase) (mesa : Option Nat),k.filas.find g.id=some g →
      k.Chama g 1 mesa true es k' → g=f := by
    intro g mesa hg hc
    obtain ⟨ms,rfl⟩ := hc.exists_mesas
    have hfind := Table.find_modify k.filas g.id i (fun f => { f with posicao := f.posicao+1 })
      (fun _ => rfl)
    change (k.incrementa g.id 1).filas.find i=_ at hfind
    change (k.incrementa g.id 1).filas.find i=some f' at hf'
    rw [hf',hf,Option.map_some] at hfind
    have hid : f.id=i := Table.key_of_find hf
    by_cases hgi : f.id=g.id
    · rw [← hgi,hid,hf] at hg
      exact (Option.some.inj hg).symm
    · have he : f'=f := by simpa [hgi] using hfind
      rw [he] at hlt
      exact absurd hlt (lt_irrefl _)
  cases h with
  | naoInscreve => simp [Requisicao.acao] at hr
  | inscreve => simp [Requisicao.acao] at hr
  | filasAnterior => simp [Requisicao.acao] at hr
  | edita => simp [Requisicao.acao] at hr
  | ativa => simp [Requisicao.acao] at hr
  | filasFim s g hg hn he =>
    obtain ⟨ms,hk⟩ := he.exists_mesas
    exact absurd (congrArg Core.filas hk) hsame
  | filasProximo s g hg hn hc =>
    obtain rfl := hown g _ hg hc
    exact ⟨hc,fun ha => by cases ha⟩
  | semMesa => exact absurd rfl hsame
  | colegiadosFim s c m hm hn he =>
    obtain ⟨ms,hk⟩ := he.exists_mesas
    exact absurd (congrArg Core.filas hk) hsame
  | colegiadosProximo s c m g hm hg hc =>
    obtain rfl := hown g _ (proximaFila_find hg) hc
    refine ⟨hc,fun _ => ?_⟩
    change (s.mesa.bind k.mesas.find).isSome=true
    rw [hm]
    rfl

/-- Some desk holds a vaga of fila `i` at position `p`. -/
def NaMesa (k : Core) (i : Nat) (p : Int) : Prop :=
  ∃ m ∈ k.mesas.rows,∃ v ∈ k.vagasDe i,v.posicao=some p ∧ m.vagaId=some v.id

/-- After a completed call the vaga at the new pointer is on a desk exactly if there is one, and the
session has a desk to put it on or some desk held it before. -/
theorem Chama.naMesa_iff {f : FilaBase} {mesa : Option Nat} {es : List Evento}
    (h : k.Chama f 1 mesa true es k') : k'.NaMesa f.id (f.posicao+1) ↔
      ∃ v ∈ k.vagasDe f.id,v.posicao=some (f.posicao+1) ∧
        ((mesa.bind k.mesas.find).isSome=true ∨ ∃ m ∈ k.mesas.rows,m.vagaId=some v.id) := by
  cases h with
  | semMesa hm =>
    rw [hm]
    simp only [NaMesa,Option.isSome_none,Bool.false_eq_true,false_or]
    constructor
    · rintro ⟨m,hmm,v,hv,hp,hmv⟩
      exact ⟨v,hv,hp,m,hmm,hmv⟩
    · rintro ⟨v,hv,hp,m,hmm,hmv⟩
      exact ⟨m,hmm,v,hv,hp,hmv⟩
  | feita m t hm =>
    constructor
    · rintro ⟨m',-,v,hv,hp,-⟩
      rw [hm]
      exact ⟨v,hv,hp,Or.inl rfl⟩
    · rintro ⟨v,hv,hp,-⟩
      -- the lookup finds a vaga there, and the desk of the session gets it
      obtain ⟨w,hw⟩ : ∃ w,k.vagaEm f.id (f.posicao+1)=some w := by
        rw [← Option.isSome_iff_exists,vagaEm,List.find?_isSome]
        exact ⟨v,hv,by simp [hp]⟩
      obtain ⟨hwm,hwf,hwp⟩ := mem_of_vagaEm hw
      obtain ⟨j,-,hmj⟩ := Option.bind_eq_some_iff.mp hm
      have hmm := Table.find_of_mem (Table.mem_of_find hmj)
      obtain ⟨r,hr,hrv⟩ := (k.incrementa f.id 1).find_mesas_ocupa hmm (some w.id) t
      rw [hw,Option.map_some]
      exact ⟨r,Table.mem_of_find hr,w,mem_vagasDe.mpr ⟨hwm,hwf⟩,hwp,hrv⟩

end Core

/-- Some desk holds a vaga at the pointer of the fila. -/
def Db.NaMesa (d : Db) (f : Fila) : Prop :=
  ∃ m ∈ d.mesas.rows,∃ v ∈ d.vagasDe (some f.id),v.posicao=some f.posicao ∧ m.vagaId=some v.id

instance (d : Db) (f : Fila) : Decidable (d.NaMesa f) :=
  inferInstanceAs (Decidable (∃ m ∈ _,∃ v ∈ _,_))

theorem Db.naMesa_core (d : Db) (f : Fila) : d.core.NaMesa f.id f.posicao ↔ d.NaMesa f := by
  unfold Core.NaMesa Db.NaMesa
  rw [Db.vagasDe_core]
  simp

/-- A call that moves the pointer forward without an exception leaves the vaga at the new pointer on
a desk exactly if there is such a vaga, and the session has a desk or some desk held the vaga
before. `ColegiadosController` asks for the desk of the session first, `FilasController` does not. -/
theorem proximo_naMesa {r : Requisicao} {s : World} {i : Nat} {f f' : Fila}
    (hr : r.acao=.filasProximo ∨ r.acao=.colegiadosProximo) (hf : s.db.filas.find i=some f)
    (hf' : (r.prog.exec s).state.db.filas.find i=some f') (hok : (r.prog.exec s).ok=true)
    (hlt : f.posicao<f'.posicao) :
    ((r.prog.exec s).state.db.NaMesa f' ↔
      ∃ v ∈ s.db.vagasDe (some i),v.posicao=some (f.posicao+1) ∧
        ((r.sessao.mesa.bind s.db.mesas.find).isSome=true ∨
          ∃ m ∈ s.db.mesas.rows,m.vagaId=some v.id)) ∧
      (r.acao=.colegiadosProximo → (r.sessao.mesa.bind s.db.mesas.find).isSome=true) := by
  have hp := r.passo s
  rw [hok] at hp
  have hfc : s.db.core.filas.find i=some f.toFilaBase := by
    rw [Db.findFila_core,hf]
    rfl
  have hfc' : (r.prog.exec s).core.filas.find i=some f'.toFilaBase := by
    have h := (r.prog.exec s).state.db.findFila_core i
    rw [hf'] at h
    exact h
  obtain ⟨hc,hcol⟩ := hp.chama_of_lt hr hfc hfc' hlt
  have hid : f.id=i := Table.key_of_find hf
  have hid' : f'.id=i := Table.key_of_find hf'
  have hpos : f'.posicao=f.posicao+1 := by
    obtain ⟨ms,hk⟩ := hc.exists_mesas
    have hfind := Table.find_modify s.db.core.filas f.id i
      (fun f => { f with posicao := f.posicao+1 }) (fun _ => rfl)
    have hfilas := congrArg Core.filas hk
    rw [hfilas] at hfc'
    rw [hfc] at hfind
    have he := hfc'.symm.trans hfind
    simpa [hid] using congrArg (Option.map FilaBase.posicao) he
  refine ⟨?_,hcol⟩
  have hn := hc.naMesa_iff
  rw [← (r.prog.exec s).state.db.naMesa_core f',hid',hpos,← hid]
  refine hn.trans ?_
  rw [Db.vagasDe_core]
  simp [hid]

/-- A superadmin at desk 1 calls the only aluno. -/
theorem proximo_naMesa_cenario :
    let s := (executa (Cenario.world Cenario.medida .empty) [Cenario.inscreve "a"]).2
    ∃ f f',s.db.filas.find 1=some f ∧
      ((Requisicao.filasProximo (Cenario.mesa 1) 1).prog.exec s).state.db.filas.find 1=some f' ∧
      f.posicao<f'.posicao ∧
      ((Requisicao.filasProximo (Cenario.mesa 1) 1).prog.exec s).state.db.NaMesa f' := by
  intro s
  obtain ⟨f,hf,f',hf',hlt,v,hv,hvp⟩ : ∃ f ∈ s.db.filas.find 1,
      ∃ f' ∈ ((Requisicao.filasProximo (Cenario.mesa 1) 1).prog.exec s).state.db.filas.find 1,
      f.posicao<f'.posicao ∧ ∃ v ∈ s.db.vagasDe (some 1),v.posicao=some (f.posicao+1) := by
    decide +kernel
  have hok : ((Requisicao.filasProximo (Cenario.mesa 1) 1).prog.exec s).ok=true := by
    decide +kernel
  have hm : ((Requisicao.filasProximo (Cenario.mesa 1) 1).sessao.mesa.bind
      s.db.mesas.find).isSome=true := by
    decide +kernel
  clear_value s
  refine ⟨f,f',hf,hf',hlt,?_⟩
  exact (proximo_naMesa (Or.inl rfl) hf hf' hok hlt).1.mpr ⟨v,hv,hvp,Or.inl hm⟩

/-- Without a desk in the session the pointer moves and nobody is seated. A call of the colegiado
from -1 moves the pointer to 0, where no vaga is. -/
theorem proximo_semMesa :
    let s := (executa (Cenario.world Cenario.medida .empty) [Cenario.inscreve "a"]).2
    let o := (Requisicao.filasProximo ⟨some { superadminRole := true },none⟩ 1).prog.exec s
    let s' := (executa s [.filasAnterior (Cenario.mesa 1) 1]).2
    let o' := (Requisicao.colegiadosProximo (Cenario.mesa 1) 1).prog.exec s'
    (o.ok=true ∧ ∃ f ∈ s.db.filas.find 1,∃ f' ∈ o.state.db.filas.find 1,f.posicao=0 ∧
      f'.posicao=1 ∧ ¬o.state.db.NaMesa f') ∧
    o'.ok=true ∧ ∃ f ∈ s'.db.filas.find 1,∃ f' ∈ o'.state.db.filas.find 1,f.posicao= -1 ∧
      f'.posicao=0 ∧ ¬o'.state.db.NaMesa f' := by
  decide +kernel

end Sisfila
