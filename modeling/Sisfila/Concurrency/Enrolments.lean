import Sisfila.Concurrency.Requests
import Sisfila.Queue.Enrolment

namespace Sisfila

namespace Core

/-- A vaga of aluno `a` in fila `f`, past its pointer. -/
def Espera (k : Core) (a : Nat) (f : FilaBase) (v : VagaBase) : Prop :=
  v ∈ k.vagas.rows ∧ v.alunoId=some a ∧ v.filaId=some f.id ∧ ∃ p ∈ v.posicao,f.posicao<p

/-- No aluno has two vagas past the pointer of one fila. -/
def UmaEspera (k : Core) : Prop :=
  ∀ a,∀ f ∈ k.filas.rows,∀ v w,k.Espera a f v → k.Espera a f w → v=w

/-- If aluno `a` waits in the fila an enrolment would go to, `Aluno#proxima_vaga` can see some vaga
of `a`. -/
def Visivel (k : Core) (a : Nat) : Prop :=
  ∀ b ∈ k.alunos.rows,b.id=a → ∀ g ∈ b.primeiroGrupo k.grupos k.alunosGrupos,
    ∀ f ∈ k.filas.rows,g.filaId=some f.id → ∀ v ∈ k.vagas.rows,k.Espera a f v →
      ∃ w ∈ k.vagas.rows,k.Viva b w

instance (k : Core) (a : Nat) (f : FilaBase) (v : VagaBase) : Decidable (k.Espera a f v) := by
  unfold Espera
  infer_instance

instance (k : Core) (a : Aluno) (v : VagaBase) : Decidable (k.Viva a v) := by
  unfold Viva
  infer_instance

instance (k : Core) (a : Nat) : Decidable (k.Visivel a) := by
  unfold Visivel
  infer_instance

/-- Nothing but the vagas and the desks differs. -/
structure Fixas (k k' : Core) : Prop where
  alunos : k'.alunos=k.alunos
  alunosGrupos : k'.alunosGrupos=k.alunosGrupos
  colegiados : k'.colegiados=k.colegiados
  filas : k'.filas=k.filas
  grupos : k'.grupos=k.grupos

def vagasDoAluno (k : Core) (a : Nat) : List VagaBase :=
  k.vagas.rows.filter (fun v => v.alunoId==some a)

theorem mem_vagasDoAluno {k : Core} {a : Nat} {v : VagaBase} :
    v ∈ k.vagasDoAluno a ↔ v ∈ k.vagas.rows ∧ v.alunoId=some a := by
  simp [vagasDoAluno]

theorem Fixas.refl (k : Core) : Fixas k k := ⟨rfl,rfl,rfl,rfl,rfl⟩

theorem Fixas.trans {k k' k'' : Core} (h : Fixas k k') (h' : Fixas k' k'') : Fixas k k'' :=
  ⟨h'.alunos.trans h.alunos,h'.alunosGrupos.trans h.alunosGrupos,h'.colegiados.trans h.colegiados,
    h'.filas.trans h.filas,h'.grupos.trans h.grupos⟩

theorem Fixas.colegiadoDe {k k' : Core} (h : Fixas k k') (c : Option Nat) :
    k'.colegiadoDe c=k.colegiadoDe c := by
  unfold Core.colegiadoDe
  rw [h.colegiados]

theorem Fixas.filasAtivas {k k' : Core} (h : Fixas k k') (c : Option Nat) :
    k'.filasAtivas c=k.filasAtivas c := by
  unfold Core.filasAtivas
  rw [h.filas]

section aluno

variable {k k' : Core} {a : Aluno} (hf : Fixas k k')
  (hv : k'.vagasDoAluno a.id=k.vagasDoAluno a.id)

include hv in
theorem espera_congr (f : FilaBase) (v : VagaBase) : k'.Espera a.id f v ↔ k.Espera a.id f v := by
  have h := mem_vagasDoAluno (k := k') (a := a.id) (v := v)
  rw [hv,mem_vagasDoAluno] at h
  unfold Espera
  rw [← and_assoc,← h,and_assoc]

include hf hv in
theorem viva_congr (v : VagaBase) : k'.Viva a v ↔ k.Viva a v := by
  have h := mem_vagasDoAluno (k := k') (a := a.id) (v := v)
  rw [hv,mem_vagasDoAluno] at h
  unfold Viva
  rw [← and_assoc,← h,and_assoc,hf.filas,hf.colegiadoDe]

theorem vagasAPartir_eq (k : Core) (a : Aluno) (f : FilaBase) :
    k.vagasAPartir a f=orderBy VagaBase.posicao ((k.vagasDoAluno a.id).filter
      (fun v => v.filaId==some f.id && decide (∃ p ∈ v.posicao,f.posicao≤p))) := by
  unfold vagasAPartir vagasDoAluno vagasDe naFila
  rw [List.filter_filter,List.filter_filter]
  congr 2
  funext v
  cases v.filaId==some f.id <;> cases v.alunoId==some a.id <;> simp

include hv in
theorem vagasAPartir_congr (f : FilaBase) : k'.vagasAPartir a f=k.vagasAPartir a f := by
  rw [vagasAPartir_eq,vagasAPartir_eq,hv]

end aluno

end Core

/-- What an event says about an enrolment: begun for an aluno, over, or nothing. -/
def Evento.inscricao : Evento → Option (Option Nat)
  | .busca a => some (some a)
  | .testa _ true => some none
  | .cria _ _ _ => some none
  | _ => none

section eventos

variable {ι : Type} [DecidableEq ι]

/-- Request `j` has begun its check for aluno `a`, and has neither found a vaga nor created one. -/
def aberto (j : ι) (a : Nat) : List (ι × Evento) → Bool
  | [] => false
  | (i,e)::tr =>
    if i=j then (e.inscricao.map (fun b => b==some a)).getD (aberto j a tr) else aberto j a tr

/-- The schedule starts a check for an aluno only when no other request is between its check and its
`Vaga.create` for the same aluno, and in a state where the check can see that the aluno waits. -/
def semSobreposicao (x : Obs ι Evento World) (i : ι) : Evento → Prop
  | .busca a => (∀ e ∈ x.trace,e.1≠i → aberto e.1 a x.trace=false) ∧ x.core.Visivel a
  | _ => True

instance (x : Obs ι Evento World) (i : ι) : (e : Evento) → Decidable (semSobreposicao x i e)
  | .busca a => inferInstanceAs (Decidable ((∀ e ∈ x.trace,e.1≠i → aberto e.1 a x.trace=false) ∧
      x.core.Visivel a))
  | .consulta | .grava | .carrega | .incrementa _ _ | .associa _ _ | .testa _ _ | .cria _ _ _
  | .difunde _ => isTrue trivial

end eventos

namespace Enrolments

variable {ι : Type} [DecidableEq ι]

/-- Nobody but `i` is enrolling aluno `a`. -/
def Sozinho (i : ι) (a : Nat) (tr : List (ι × Evento)) : Prop := ∀ j,j≠i → aberto j a tr=false

theorem aberto_cons_ne {i j : ι} (h : i≠j) (a : Nat) (e : Evento) (tr : List (ι × Evento)) :
    aberto j a ((i,e)::tr)=aberto j a tr := by
  rw [aberto,if_neg h]

theorem aberto_of_not_mem {j : ι} {a : Nat} {tr : List (ι × Evento)} (h : ∀ e ∈ tr,e.1≠j) :
    aberto j a tr=false := by
  induction tr with
  | nil => rfl
  | cons e tr ih =>
    obtain ⟨i,e⟩ := e
    rw [aberto_cons_ne (h _ List.mem_cons_self)]
    exact ih (fun e he => h e (List.mem_cons_of_mem _ he))

theorem aberto_cons_self {i : ι} {e : Evento} (he : e.inscricao=none) (a : Nat)
    (tr : List (ι × Evento)) : aberto i a ((i,e)::tr)=aberto i a tr := by
  rw [aberto,if_pos rfl,he]
  rfl

/-- Only a check opens. -/
theorem aberto_cons {i : ι} {a : Nat} {e : Evento} {tr : List (ι × Evento)}
    (h : aberto i a ((i,e)::tr)=true) : e=.busca a ∨ aberto i a tr=true := by
  cases he : e.inscricao with
  | none =>
    rw [aberto_cons_self he] at h
    exact Or.inr h
  | some b =>
    rw [aberto,if_pos rfl,he] at h
    obtain rfl : b=some a := beq_iff_eq.mp h
    cases e with
    | busca c =>
      obtain rfl : c=a := Option.some.inj (Option.some.inj he)
      exact Or.inl rfl
    | testa c b => cases b <;> cases he
    | _ => cases he

theorem sozinho_of_ok {i : ι} {a : Nat} {tr : List (ι × Evento)}
    (h : ∀ e ∈ tr,e.1≠i → aberto e.1 a tr=false) : Sozinho i a tr := by
  intro j hj
  by_cases hm : ∃ e ∈ tr,e.1=j
  · obtain ⟨e,he,rfl⟩ := hm
    exact h e he hj
  · exact aberto_of_not_mem (fun e he hej => hm ⟨e,he,hej⟩)

theorem Sozinho.cons {i : ι} {a : Nat} {tr : List (ι × Evento)} (h : Sozinho i a tr)
    (e : Evento) : Sozinho i a ((i,e)::tr) := by
  intro j hj
  rw [aberto_cons_ne (Ne.symm hj)]
  exact h j hj

/-- What request `i` may rely on: while it alone is enrolling an aluno, the vagas of that aluno stay
as they are. -/
structure Rely (i : ι) (x y : Obs ι Evento World) : Prop where
  fixas : x.core.Fixas y.core
  cresce : ∀ v ∈ x.core.vagas.rows,v ∈ y.core.vagas.rows
  abertos : ∀ a,aberto i a y.trace=aberto i a x.trace
  sozinho : ∀ a,aberto i a x.trace=true → Sozinho i a x.trace →
    Sozinho i a y.trace ∧ y.core.vagasDoAluno a=x.core.vagasDoAluno a

/-- What a statement of request `i` does: it checks only while alone, and enrols only an aluno it has
checked and who does not wait in that fila. -/
structure Avanca (i : ι) (e : Evento) (x y : Obs ι Evento World) : Prop where
  trace : y.trace=(i,e)::x.trace
  fixas : x.core.Fixas y.core
  busca : ∀ a,e=.busca a → Sozinho i a x.trace
  vagas : y.core.vagas=x.core.vagas ∨ ∃ a f n t,y.core=x.core.insereVaga a f n t ∧
    aberto i a x.trace=true ∧ ∀ b ∈ x.core.filas.rows,b.id=f → ∀ v,¬x.core.Espera a b v

def Guarantee (i : ι) (x y : Obs ι Evento World) : Prop := ∃ e,Avanca i e x y

theorem Rely.refl (i : ι) (x : Obs ι Evento World) : Rely i x x :=
  ⟨Core.Fixas.refl _,fun _ h => h,fun _ => rfl,fun _ _ h => ⟨h,rfl⟩⟩

theorem Rely.trans (i : ι) (x y z : Obs ι Evento World) (h : Rely i x y) (h' : Rely i y z) :
    Rely i x z where
  fixas := h.fixas.trans h'.fixas
  cresce := fun v hv => h'.cresce v (h.cresce v hv)
  abertos := fun a => (h'.abertos a).trans (h.abertos a)
  sozinho := by
    intro a ha hs
    obtain ⟨hy,hvy⟩ := h.sozinho a ha hs
    obtain ⟨hz,hvz⟩ := h'.sozinho a ((h.abertos a).trans ha) hy
    exact ⟨hz,hvz.trans hvy⟩

theorem vagasDoAluno_insereVaga {k : Core} {a b f n : Nat} {t : ℚ} (h : a≠b) :
    (k.insereVaga a f n t).vagasDoAluno b=k.vagasDoAluno b := by
  unfold Core.vagasDoAluno
  rw [Core.rows_insereVaga,List.filter_append]
  simp [Core.novaVaga,h]

/-- The others rely on no more than every statement gives. -/
theorem Guarantee.rely {i j : ι} (hij : i≠j) {x y : Obs ι Evento World} (h : Guarantee i x y) :
    Rely j x y := by
  obtain ⟨e,h⟩ := h
  have hgrow : ∀ v ∈ x.core.vagas.rows,v ∈ y.core.vagas.rows := by
    intro v hv
    rcases h.vagas with he | ⟨b,f,n,t,hk,_⟩
    · rw [he]
      exact hv
    · rw [hk,Core.rows_insereVaga]
      exact List.mem_append_left _ hv
  refine ⟨h.fixas,hgrow,fun a => by rw [h.trace,aberto_cons_ne hij],?_⟩
  intro a ha hs
  have hi : aberto i a x.trace=false := hs i hij
  constructor
  · intro l hl
    rw [h.trace]
    by_cases hli : l=i
    · subst hli
      -- `i` can only open with a check, which it would not start while `j` is open
      by_contra hne
      rcases aberto_cons (Bool.not_eq_false _ ▸ hne) with rfl | ho
      · have hj := h.busca a rfl j (Ne.symm hij)
        rw [ha] at hj
        cases hj
      · rw [hi] at ho
        cases ho
    · rw [aberto_cons_ne (Ne.symm hli)]
      exact hs l hl
  · rcases h.vagas with hv | ⟨b,f,n,t,hk,ho,_⟩
    · unfold Core.vagasDoAluno
      rw [hv]
    · have hba : b≠a := by
        rintro rfl
        rw [hi] at ho
        cases ho
      rw [hk]
      exact vagasDoAluno_insereVaga hba

/-- Every statement of a request keeps the property. -/
theorem Guarantee.umaEspera {i : ι} {x y : Obs ι Evento World} (h : Guarantee i x y)
    (hx : x.core.UmaEspera) : y.core.UmaEspera := by
  obtain ⟨e,h⟩ := h
  intro a f hf v w hv hw
  rw [h.fixas.filas] at hf
  unfold Core.Espera at hv hw
  rcases h.vagas with he | ⟨b,g,n,t,hk,_,hn⟩
  · rw [he] at hv hw
    exact hx a f hf v w hv hw
  · rw [hk,Core.rows_insereVaga,List.mem_append,List.mem_singleton] at hv hw
    obtain ⟨hv | hv,hva,hvf,hvp⟩ := hv <;> obtain ⟨hw | hw,hwa,hwf,hwp⟩ := hw
    · exact hx a f hf v w ⟨hv,hva,hvf,hvp⟩ ⟨hw,hwa,hwf,hwp⟩
    · subst hw
      obtain rfl : b=a := Option.some.inj hwa
      obtain rfl : g=f.id := Option.some.inj hwf
      exact absurd ⟨hv,hva,hvf,hvp⟩ (hn f hf rfl v)
    · subst hv
      obtain rfl : b=a := Option.some.inj hva
      obtain rfl : g=f.id := Option.some.inj hvf
      exact absurd ⟨hw,hwa,hwf,hwp⟩ (hn f hf rfl w)
    · rw [hv,hw]

variable {i : ι} {x : Obs ι Evento World}

/-- A statement of `i` that says nothing about its enrolment is like none. -/
theorem Rely.silent {l : World → Evento} {w : World → World} (hl : (l x.state).inscricao=none)
    (hw : (w x.state).db.core=x.core) : Rely i x (x.push i l w) := by
  have hk : (x.push i l w).core=x.core := hw
  refine ⟨by rw [hk]; exact Core.Fixas.refl _,by rw [hk]; exact fun _ h => h,?_,?_⟩
  · exact fun a => aberto_cons_self hl a x.trace
  · exact fun a _ hs => ⟨hs.cons _,by rw [hk]⟩

theorem Guarantee.silent {l : World → Evento} {w : World → World} (hl : ∀ a,l x.state≠.busca a)
    (hw : (w x.state).db.core=x.core) : Guarantee i x (x.push i l w) := by
  have hk : (x.push i l w).core=x.core := hw
  exact ⟨_,rfl,by rw [hk]; exact Core.Fixas.refl _,fun a ha => absurd ha (hl a),
    Or.inl (by rw [hk])⟩

/-- A step of an enrolment, while the others do as they rely on each other to do. -/
abbrev Segue {α : Type} (i : ι) (A : Obs ι Evento World → Prop) (p : Req α)
    (B : α → Obs ι Evento World → Prop) : Prop :=
  Prog.Triple i semSobreposicao (Rely i) (Guarantee i) A p B

theorem segue_consulta {α : Type} {q : Db → α} {A : Obs ι Evento World → Prop}
    {B : α → Obs ι Evento World → Prop} (hA : Prog.Stable (Rely i) A)
    (hB : ∀ a,Prog.Stable (Rely i) (B a)) (h : ∀ x,A x → B (q x.state.db) x) :
    Segue i A (consulta q) B :=
  Prog.Triple.query hA hB
    (fun _ _ => ⟨Rely.silent rfl rfl,Guarantee.silent (fun _ h => by cases h) rfl⟩) h

theorem segue_timeNow {A : Obs ι Evento World → Prop} (hA : Prog.Stable (Rely i) A) :
    Segue i A timeNow (fun _ => A) := by
  apply Prog.Triple.step hA (fun _ => hA)
  intro x hx _
  exact ⟨Guarantee.silent (fun _ h => by cases h) rfl,hA x _ hx (Rely.silent rfl rfl)⟩

/-- The aluno and the grupo of the request. -/
structure Escolhida (a : Aluno) (g : Grupo) (x : Obs ι Evento World) : Prop where
  aluno : a ∈ x.core.alunos.rows
  grupo : a.primeiroGrupo x.core.grupos x.core.alunosGrupos=some g

/-- The check has begun, nobody else enrols the aluno, and it can see whether the aluno waits. -/
structure Buscando (i : ι) (a : Aluno) (g : Grupo) (x : Obs ι Evento World) : Prop where
  aberto : aberto i a.id x.trace=true
  sozinho : Sozinho i a.id x.trace
  visivel : ∀ f ∈ x.core.filas.rows,g.filaId=some f.id → ∀ v,x.core.Espera a.id f v →
    ∃ w,x.core.Viva a w

/-- The check goes on with the filas `fs`; the others have no vaga to show. -/
structure Varrendo (i : ι) (a : Aluno) (g : Grupo) (c : Option Nat) (fs : List Fila)
    (x : Obs ι Evento World) : Prop where
  buscando : Buscando i a g x
  colegiado : x.core.colegiadoDe a.colegiadoId=c
  vistas : ∀ f ∈ x.core.filasAtivas c,f ∈ fs.map Fila.toFilaBase ∨ x.core.vagasAPartir a f=[]

/-- The check is over: the aluno does not wait in the fila of the grupo. -/
structure Liberada (i : ι) (a : Aluno) (g : Grupo) (x : Obs ι Evento World) : Prop where
  aberto : aberto i a.id x.trace=true
  sozinho : Sozinho i a.id x.trace
  livre : ∀ f ∈ x.core.filas.rows,g.filaId=some f.id → ∀ v,¬x.core.Espera a.id f v

theorem Escolhida.stable (a : Aluno) (g : Grupo) :
    Prog.Stable (Rely i) (Escolhida a g) := by
  intro x y hx h
  refine ⟨?_,?_⟩
  · rw [h.fixas.alunos]
    exact hx.aluno
  · rw [h.fixas.grupos,h.fixas.alunosGrupos]
    exact hx.grupo

theorem Buscando.stable (a : Aluno) (g : Grupo) : Prog.Stable (Rely i) (Buscando i a g) := by
  intro x y hx h
  obtain ⟨hs,hv⟩ := h.sozinho a.id hx.aberto hx.sozinho
  refine ⟨(h.abertos a.id).trans hx.aberto,hs,?_⟩
  intro f hf hg v he
  rw [h.fixas.filas] at hf
  obtain ⟨w,hw⟩ := hx.visivel f hf hg v ((Core.espera_congr hv f v).mp he)
  exact ⟨w,(Core.viva_congr h.fixas hv w).mpr hw⟩

theorem Varrendo.stable (a : Aluno) (g : Grupo) (c : Option Nat) (fs : List Fila) :
    Prog.Stable (Rely i) (Varrendo i a g c fs) := by
  intro x y hx h
  obtain ⟨_,hv⟩ := h.sozinho a.id hx.buscando.aberto hx.buscando.sozinho
  refine ⟨Buscando.stable a g x y hx.buscando h,(h.fixas.colegiadoDe _).trans hx.colegiado,?_⟩
  intro f hf
  rw [h.fixas.filasAtivas] at hf
  rw [Core.vagasAPartir_congr hv]
  exact hx.vistas f hf

theorem Liberada.stable (a : Aluno) (g : Grupo) : Prog.Stable (Rely i) (Liberada i a g) := by
  intro x y hx h
  obtain ⟨hs,hv⟩ := h.sozinho a.id hx.aberto hx.sozinho
  refine ⟨(h.abertos a.id).trans hx.aberto,hs,?_⟩
  intro f hf hg v he
  rw [h.fixas.filas] at hf
  exact hx.livre f hf hg v ((Core.espera_congr hv f v).mp he)

/-- A check that found nothing has seen every fila it should have. -/
theorem Varrendo.liberada {a : Aluno} {g : Grupo} {c : Option Nat} (h : Varrendo i a g c [] x) :
    Liberada i a g x := by
  have hn : x.core.proximaVaga a=none := by
    unfold Core.proximaVaga
    rw [h.colegiado]
    apply List.findSome?_eq_none_iff.mpr
    intro f hf
    rcases h.vistas f hf with hm | he
    · cases hm
    · rw [he]
      rfl
  refine ⟨h.buscando.aberto,h.buscando.sozinho,?_⟩
  intro f hf hg v hv
  obtain ⟨w,hw⟩ := h.buscando.visivel f hf hg v hv
  exact (x.core.proximaVaga_eq_none_iff a).mp hn w hw

/-- A vaga that was there is still there. -/
theorem stable_vagasAPartir (a : Aluno) (f : FilaBase) :
    Prog.Stable (Rely i) (fun x => ∃ v,v ∈ x.core.vagasAPartir a f) := by
  intro x y hx h
  obtain ⟨v,hv⟩ := hx
  rw [Core.vagasAPartir,mem_orderBy,List.mem_filter,Core.mem_vagasDe] at hv
  refine ⟨v,?_⟩
  rw [Core.vagasAPartir,mem_orderBy,List.mem_filter,Core.mem_vagasDe]
  exact ⟨⟨h.cresce v hv.1.1,hv.1.2⟩,hv.2⟩

/-- After one test of the loop: a vaga found in `f`, or `f` left behind. -/
def Testada (i : ι) (a : Aluno) (g : Grupo) (c : Option Nat) (f : Fila) (fs : List Fila) :
    Bool → Obs ι Evento World → Prop
  | true,x => ∃ v,v ∈ x.core.vagasAPartir a f.toFilaBase
  | false,x => Varrendo i a g c fs x

theorem segue_testa (a : Aluno) (g : Grupo) (c : Option Nat) (f : Fila) (fs : List Fila) :
    Segue i (Varrendo i a g c (f::fs))
      (le (fun d => .testa a.id (!(a.vagasAPartir f d).isEmpty))
        (fun d => !(a.vagasAPartir f d).isEmpty))
      (Testada i a g c f fs) := by
  apply Prog.Triple.step (Varrendo.stable a g c (f::fs))
  · intro b
    cases b with
    | false => exact Varrendo.stable a g c fs
    | true => exact stable_vagasAPartir a f.toFilaBase
  · intro x hx _
    refine ⟨Guarantee.silent (fun _ h => by cases h) rfl,?_⟩
    have hcore : x.core.vagasAPartir a f.toFilaBase=
        (a.vagasAPartir f x.state.db).map Vaga.toVagaBase := Db.vagasAPartir_core _ _ _
    cases hl : a.vagasAPartir f x.state.db with
    | nil =>
      rw [hl,List.map_nil] at hcore
      have hr : Rely i x (x.push i (fun s => .testa a.id (!(a.vagasAPartir f s.db).isEmpty)) id) := by
        apply Rely.silent
        · rw [hl]
          rfl
        · rfl
      have hy := Varrendo.stable a g c (f::fs) x _ hx hr
      beta_reduce
      rw [hl]
      refine ⟨hy.buscando,hy.colegiado,?_⟩
      intro b hb
      rcases hy.vistas b hb with hm | he
      · rcases List.mem_cons.mp hm with rfl | hm
        · exact Or.inr hcore
        · exact Or.inl hm
      · exact Or.inr he
    | cons v vs =>
      beta_reduce
      rw [hl]
      refine ⟨v.toVagaBase,?_⟩
      show v.toVagaBase ∈ x.core.vagasAPartir a f.toFilaBase
      rw [hcore,hl]
      exact List.mem_cons_self

theorem segue_procuraVaga (a : Aluno) (g : Grupo) (c : Option Nat) (fs : List Fila) :
    Segue i (Varrendo i a g c fs) (a.procuraVaga fs) (fun o x => o=none → Liberada i a g x) := by
  induction fs with
  | nil =>
    exact Prog.Triple.ret (Varrendo.stable a g c []) (fun _ h _ => h.liberada)
  | cons f fs ih =>
    apply Prog.Triple.bind (Rely.refl i) (segue_testa a g c f fs)
    intro b
    cases b with
    | false => exact ih
    | true =>
      have hq : Segue i (fun x => ∃ v,v ∈ x.core.vagasAPartir a f.toFilaBase)
          (consulta (fun d => (a.vagasAPartir f d).head?)) (fun o _ => o≠none) := by
        apply segue_consulta (stable_vagasAPartir a f.toFilaBase) (fun _ _ _ h _ => h)
        intro x hx hn
        obtain ⟨v,hv⟩ := hx
        rw [Obs.core,Db.vagasAPartir_core,List.head?_eq_none_iff.mp hn] at hv
        cases hv
      apply Prog.Triple.bind (Rely.refl i) hq
      intro o
      refine Prog.Triple.ret (fun _ _ h _ => h) (fun x ho hn => ?_)
      exact absurd (Option.map_eq_none_iff.mp hn) ho

theorem segue_proximaVaga (a : Aluno) (g : Grupo) :
    Segue i (Escolhida a g) a.proximaVaga (fun o x => o=none → Liberada i a g x) := by
  have hb : Segue i (Escolhida a g)
      (le (fun _ => .busca a.id) (fun d => d.colegiadoDe a.colegiadoId))
      (fun c x => x.core.colegiadoDe a.colegiadoId=c ∧ Buscando i a g x) := by
    apply Prog.Triple.step (Escolhida.stable a g)
    · intro c x y hx h
      exact ⟨(h.fixas.colegiadoDe _).trans hx.1,Buscando.stable a g x y hx.2 h⟩
    · intro x hx hok
      have hs := sozinho_of_ok hok.1
      refine ⟨⟨_,rfl,Core.Fixas.refl _,?_,Or.inl rfl⟩,rfl,?_,hs.cons _,?_⟩
      · intro b hb
        obtain rfl : a.id=b := Evento.busca.inj hb
        exact hs
      · rw [Obs.push_trace,aberto,if_pos rfl]
        exact beq_self_eq_true _
      · intro f hf hg v hv
        obtain ⟨w,_,hw⟩ := hok.2 a hx.aluno rfl g hx.grupo f hf hg v hv.1 hv
        exact ⟨w,hw⟩
  apply Prog.Triple.bind (Rely.refl i) hb
  intro c
  have hf : Segue i (fun x => x.core.colegiadoDe a.colegiadoId=c ∧ Buscando i a g x)
      (consulta (Aluno.filasAtivas c)) (Varrendo i a g c) := by
    apply segue_consulta
    · intro x y hx h
      exact ⟨(h.fixas.colegiadoDe _).trans hx.1,Buscando.stable a g x y hx.2 h⟩
    · exact Varrendo.stable a g c
    · intro x hx
      refine ⟨hx.2,hx.1,fun f hf => Or.inl ?_⟩
      rw [← Db.filasAtivas_core]
      exact hf
  exact Prog.Triple.bind (Rely.refl i) hf (segue_procuraVaga a g c)

/-- The INSERT, for an aluno who does not wait in the fila. -/
theorem segue_insere (a : Aluno) {g : Grupo} {f : Nat} (hf : g.filaId=some f) (n : Nat) (t : ℚ) :
    Segue i (Liberada i a g)
      (escreve (fun d => .cria a.id (some f) (some d.vagas.next))
        (fun d => d.insereVaga a.id (some f) n t)) (fun _ _ => True) := by
  apply Prog.Triple.step (Liberada.stable a g) (fun _ _ _ h _ => h)
  intro x hx _
  have hk : (x.push i (fun s => .cria a.id (some f) (some s.db.vagas.next))
      (fun s => { s with db := s.db.insereVaga a.id (some f) n t })).core=
      x.core.insereVaga a.id f n t := Db.core_insereVaga _ _ _ _ _
  refine ⟨⟨_,rfl,?_,?_,Or.inr ⟨a.id,f,n,t,hk,hx.aberto,?_⟩⟩,trivial⟩
  · rw [hk]
    exact ⟨rfl,rfl,rfl,rfl,rfl⟩
  · intro b hb
    cases hb
  · intro b hb hbf
    exact hx.livre b hb (hf.trans (congrArg some hbf.symm))

/-- An unsaved object changes nothing. -/
theorem segue_naoInsere (a : Aluno) (A : Obs ι Evento World → Prop) (hA : Prog.Stable (Rely i) A) :
    Segue i A (le (fun _ => .cria a.id none none) (fun _ => ())) (fun _ _ => True) := by
  apply Prog.Triple.step hA (fun _ _ _ h _ => h)
  intro x _ _
  exact ⟨Guarantee.silent (fun _ h => by cases h) rfl,trivial⟩

theorem segue_create (a : Aluno) (g : Grupo) :
    Segue i (Liberada i a g) (Vaga.create a g.filaId) (fun _ _ => True) := by
  have hst := Liberada.stable (i := i) a g
  have hf : Segue i (Liberada i a g) (consulta (fun d => d.filaDe g.filaId))
      (fun o x => (∀ f ∈ o,g.filaId=some f.id) ∧ Liberada i a g x) := by
    apply segue_consulta hst (fun _ => hst.fact)
    intro x hx
    refine ⟨fun f hf => ?_,hx⟩
    obtain ⟨j,hj,hfind⟩ := Option.bind_eq_some_iff.mp hf
    rw [hj,← Table.key_of_find hfind]
    rfl
  exact Vaga.triple_create (Rely.refl i) hf (segue_naoInsere a _ hst.fact)
    (fun _ => segue_consulta hst.fact (fun _ => hst.fact) (fun _ h => h))
    (fun _ _ => segue_timeNow hst.fact)
    (fun f n t => Prog.Triple.of_fact (fun ho => segue_insere a (ho f rfl) n t))
    (fun _ _ _ h _ => h)

theorem stable_aluno (a : Aluno) : Prog.Stable (Rely i) (fun x => a ∈ x.core.alunos.rows) := by
  intro x y hx h
  rw [h.fixas.alunos]
  exact hx

/-- The outline of an enrolment under this schedule. -/
def inscricao (i : ι) : Inscricao i semSobreposicao (Rely i) (Guarantee i) where
  inicio _ := True
  achado a x := a ∈ x.core.alunos.rows
  escolhida := Escolhida
  liberada := Liberada i
  respondida _ _ := True
  refl := Rely.refl i
  consulta _ := Guarantee.silent (fun _ h => by cases h) rfl
  inicio_consulta _ h := h
  achado_consulta _ _ h := h
  stable_inicio _ _ h _ := h
  stable_achado := stable_aluno
  stable_escolhida := Escolhida.stable
  stable_respondida _ _ _ h _ := h
  acha _ _ _ h := h
  escolhe _ _ _ ha hg := ⟨ha,hg⟩
  procura := segue_proximaVaga
  nega _ _ _ := trivial
  cria := segue_create

end Enrolments

/-- Concurrent enrolments. If a check for an aluno starts only when no other request is between its
check and its `Vaga.create` for the same aluno, and only in a state where it can see that the aluno
waits, then no aluno ever has two vagas past the pointer of one fila. -/
theorem inscrever_semSobreposicao {ι : Type} [DecidableEq ι] {s₀ : World}
    (h₀ : s₀.db.core.UmaEspera) (rs : ι → Sessao × Option String)
    {c : Config ι Evento World Erro Resposta}
    (h : Config.Reach semSobreposicao
      (Config.start s₀ (fun i => TelaController.inscrever (rs i).1 (rs i).2)) c) :
    c.obs.core.UmaEspera := by
  have hsafe : (Config.start s₀ (fun i => TelaController.inscrever (rs i).1 (rs i).2)).AllSafe
      semSobreposicao Enrolments.Rely Enrolments.Guarantee (fun _ _ _ => True) :=
    fun i => (Enrolments.inscricao i).inscrever _ _ _ trivial
  obtain ⟨_,hinv⟩ := hsafe.reach h (fun x => x.core.UmaEspera) h₀ Enrolments.Rely.refl
    Enrolments.Rely.trans (fun i j hij x y hg => hg.rely hij) (fun i x y hx hg => hg.umaEspera hx)
  exact hinv

namespace Enrolments

open Cenario

/-- The same matricula twice, for a fila nobody is in. -/
def inicio : Config Bool Evento World Erro Resposta :=
  Config.start (world medida Table.empty) (fun _ => TelaController.inscrever ⟨none,none⟩ (some "a"))

/-- Both requests find aluno and grupo before either checks; the checks do not overlap. -/
def intercalada : Config Bool Evento World Erro Resposta :=
  inicio.fireAll (List.replicate 3 true++List.replicate 3 false++List.replicate 30 true++
    List.replicate 30 false)

/-- Both requests check before either creates. -/
def sobreposta : Config Bool Evento World Erro Resposta :=
  inicio.fireAll (List.replicate 7 true++List.replicate 30 false++List.replicate 30 true)

theorem umaEspera_empty : (world medida Table.empty).db.core.UmaEspera :=
  fun _ _ _ _ _ h => absurd h.1 List.not_mem_nil

end Enrolments

theorem inscrever_semSobreposicao_intercalada :
    Enrolments.intercalada.obs.core.vagas.rows.length=1 ∧
    (∀ b,(Enrolments.intercalada.pool b).returned) ∧
    Enrolments.intercalada.obs.core.UmaEspera := by
  have hc : Config.Reach semSobreposicao Enrolments.inicio Enrolments.intercalada :=
    Config.Reach.refl.fireAll _ (by decide +kernel)
  exact ⟨by decide +kernel,by decide +kernel,
    inscrever_semSobreposicao Enrolments.umaEspera_empty (fun _ => (⟨none,none⟩,some "a")) hc⟩

/-- Both requests answer, and the aluno waits twice in fila 1. -/
theorem inscrever_sobreposta :
    (Cenario.world Cenario.medida Table.empty).db.core.UmaEspera ∧
    Config.Reach (fun _ _ _ => True) Enrolments.inicio Enrolments.sobreposta ∧
    (∀ b,(Enrolments.sobreposta.pool b).returned) ∧
    ∃ f ∈ Enrolments.sobreposta.obs.core.filas.rows,
      ∃ v ∈ Enrolments.sobreposta.obs.core.vagas.rows,
      ∃ w ∈ Enrolments.sobreposta.obs.core.vagas.rows,v≠w ∧
        Enrolments.sobreposta.obs.core.Espera 1 f v ∧
        Enrolments.sobreposta.obs.core.Espera 1 f w :=
  ⟨Enrolments.umaEspera_empty,Config.reach_fireAll _ _,by decide +kernel,by decide +kernel⟩

end Sisfila
