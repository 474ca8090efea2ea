import Arabize.Lexicon.Basic

/-! # The bundled lexicon

English words and phrases of user interfaces with their Arabic translations.
-/

namespace Arabize.Lexicon

/-- The entries of the bundled lexicon as strings. -/
def bundledEntries : List (String × String) :=
  [("Welcome", "مرحباً"),
   ("Hello", "مرحباً"),
   ("Hello World", "مرحباً بالعالم"),
   ("Welcome to the application", "مرحباً بك في التطبيق"),
   ("Home", "الرئيسية"),
   ("About", "حول"),
   ("About Us", "من نحن"),
   ("Contact", "اتصل"),
   ("Contact Us", "اتصل بنا"),
   ("Services", "الخدمات"),
   ("Products", "المنتجات"),
   ("Product", "منتج"),
   ("Blog", "المدونة"),
   ("News", "الأخبار"),
   ("Gallery", "المعرض"),
   ("Portfolio", "الأعمال"),
   ("Pricing", "الأسعار"),
   ("Features", "المميزات"),
   ("Team", "الفريق"),
   ("Careers", "الوظائف"),
   ("FAQ", "الأسئلة الشائعة"),
   ("Help", "مساعدة"),
   ("Support", "الدعم"),
   ("Privacy Policy", "سياسة الخصوصية"),
   ("Terms of Service", "شروط الخدمة"),
   ("Login", "تسجيل الدخول"),
   ("Log in", "تسجيل الدخول"),
   ("Logout", "تسجيل الخروج"),
   ("Log out", "تسجيل الخروج"),
   ("Sign in", "تسجيل الدخول"),
   ("Sign up", "إنشاء حساب"),
   ("Register", "التسجيل"),
   ("Account", "الحساب"),
   ("Profile", "الملف الشخصي"),
   ("Settings", "الإعدادات"),
   ("Dashboard", "لوحة التحكم"),
   ("Username", "اسم المستخدم"),
   ("Password", "كلمة المرور"),
   ("Forgot password?", "هل نسيت كلمة المرور؟"),
   ("Remember me", "تذكرني"),
   ("Email", "البريد الإلكتروني"),
   ("Email address", "عنوان البريد الإلكتروني"),
   ("Phone", "الهاتف"),
   ("Address", "العنوان"),
   ("Name", "الاسم"),
   ("First name", "الاسم الأول"),
   ("Last name", "اسم العائلة"),
   ("Full name", "الاسم الكامل"),
   ("Enter your name", "أدخل اسمك"),
   ("Enter your email", "أدخل بريدك الإلكتروني"),
   ("Name input", "حقل الاسم"),
   ("Message", "رسالة"),
   ("Subject", "الموضوع"),
   ("Submit", "إرسال"),
   ("Send", "إرسال"),
   ("Save", "حفظ"),
   ("Cancel", "إلغاء"),
   ("Delete", "حذف"),
   ("Edit", "تعديل"),
   ("Update", "تحديث"),
   ("Add", "إضافة"),
   ("Remove", "إزالة"),
   ("Close", "إغلاق"),
   ("Open", "فتح"),
   ("Back", "رجوع"),
   ("Next", "التالي"),
   ("Previous", "السابق"),
   ("Continue", "متابعة"),
   ("Confirm", "تأكيد"),
   ("Yes", "نعم"),
   ("No", "لا"),
   ("OK", "موافق"),
   ("Search", "بحث"),
   ("Search...", "بحث..."),
   ("Filter", "تصفية"),
   ("Sort", "ترتيب"),
   ("Sort by", "ترتيب حسب"),
   ("View", "عرض"),
   ("View all", "عرض الكل"),
   ("Show more", "عرض المزيد"),
   ("Show less", "عرض أقل"),
   ("Read more", "اقرأ المزيد"),
   ("Learn more", "اعرف المزيد"),
   ("Get started", "ابدأ الآن"),
   ("Download", "تحميل"),
   ("Upload", "رفع"),
   ("Share", "مشاركة"),
   ("Copy", "نسخ"),
   ("Print", "طباعة"),
   ("Refresh", "تحديث"),
   ("Loading", "جاري التحميل"),
   ("Loading...", "جاري التحميل..."),
   ("Please wait", "يرجى الانتظار"),
   ("Error", "خطأ"),
   ("Warning", "تحذير"),
   ("Success", "نجاح"),
   ("Info", "معلومات"),
   ("Notice", "تنبيه"),
   ("Something went wrong", "حدث خطأ ما"),
   ("Try again", "حاول مرة أخرى"),
   ("Page not found", "الصفحة غير موجودة"),
   ("No results found", "لم يتم العثور على نتائج"),
   ("Required", "مطلوب"),
   ("Optional", "اختياري"),
   ("Cart", "سلة التسوق"),
   ("Shopping Cart", "سلة التسوق"),
   ("Checkout", "الدفع"),
   ("Order", "طلب"),
   ("Orders", "الطلبات"),
   ("Price", "السعر"),
   ("Total", "المجموع"),
   ("Quantity", "الكمية"),
   ("Buy now", "اشترِ الآن"),
   ("Add to cart", "أضف إلى السلة"),
   ("Free", "مجاني"),
   ("Language", "اللغة"),
   ("English", "الإنجليزية"),
   ("Arabic", "العربية"),
   ("Date", "التاريخ"),
   ("Time", "الوقت"),
   ("Today", "اليوم"),
   ("Yesterday", "أمس"),
   ("Tomorrow", "غداً"),
   ("Title", "العنوان"),
   ("Description", "الوصف"),
   ("Details", "التفاصيل"),
   ("Category", "الفئة"),
   ("Categories", "الفئات"),
   ("Tags", "الوسوم"),
   ("Comments", "التعليقات"),
   ("Reply", "رد"),
   ("Status", "الحالة"),
   ("Active", "نشط"),
   ("Inactive", "غير نشط"),
   ("Enabled", "مفعل"),
   ("Disabled", "معطل"),
   ("All", "الكل"),
   ("None", "لا شيء"),
   ("New", "جديد"),
   ("Image", "صورة"),
   ("Video", "فيديو"),
   ("File", "ملف"),
   ("Files", "الملفات"),
   ("Menu", "القائمة"),
   ("Notifications", "الإشعارات"),
   ("Messages", "الرسائل"),
   ("Users", "المستخدمون"),
   ("User", "مستخدم"),
   ("Admin", "المسؤول"),
   ("Page", "صفحة"),
   ("Test", "اختبار"),
   ("Test Page", "صفحة اختبار"),
   ("Test Image", "صورة اختبار"),
   ("Image Title", "عنوان الصورة"),
   ("Page Title", "عنوان الصفحة"),
   ("First", "الأول"),
   ("Second", "الثاني"),
   ("Third", "الثالث"),
   ("This is a test", "هذا اختبار"),
   ("This is a test message", "هذه رسالة اختبار"),
   ("This is a test page for translation.", "هذه صفحة اختبار للترجمة."),
   ("This is a description", "هذا وصف"),
   ("Nested object", "كائن متداخل"),
   ("All rights reserved", "جميع الحقوق محفوظة"),
   ("Copyright", "حقوق النشر"),
   ("Follow us", "تابعنا"),
   ("Subscribe", "اشترك"),
   ("Newsletter", "النشرة الإخبارية"),
   ("Thank you", "شكراً لك"),
   ("Welcome back", "مرحباً بعودتك"),
   ("world", "العالم"),
   ("welcome", "مرحباً")]

def bundled : Lexicon :=
  bundledEntries.map fun e => (Text.ofString e.1, Text.ofString e.2)

end Arabize.Lexicon

namespace Arabize.Installed

/-- The bundled lexicon is the one that ships. -/
scoped instance bundle : Lexicon.Bundle := ⟨Lexicon.bundled⟩

end Arabize.Installed
